import ChlorosSnfs.Snfs.HandlerReplies
import ChlorosSnfs.Snfs.MessageBounds
import ChlorosSnfs.Snfs.Wire

/-!
# The wire format reads back

The structures of requests.h and replys.h put every field where the other side
looks for it, inside the bytes that are sent, and equal bytes have equal fields.
-/

set_option autoImplicit false

namespace ChlorosSnfs.Snfs.RoundTrip

open ChlorosSnfs.Library.LittleEndian
open ChlorosSnfs.Library.StructLayout
open ChlorosSnfs.Snfs.Fhandledb
open ChlorosSnfs.Snfs.Messages
open ChlorosSnfs.Snfs.Syscalls
open ChlorosSnfs.Snfs.ServeLoop
open ChlorosSnfs.Snfs.HandlerEffects
open ChlorosSnfs.Snfs.HandlerReplies
open ChlorosSnfs.Snfs.MessageBounds
open ChlorosSnfs.Snfs.Client
open ChlorosSnfs.Snfs.Wire

/-! ## Reading a value where it stands -/

section Reads

variable {message : Bytes} {offset : Nat}

theorem readBytes_of_holdsAt {field : Bytes} {width : Nat}
    (holds : HoldsAt message offset field) (wide : field.length = width) :
    readBytes message offset width = .ok field := by
  obtain ⟨before, after, rfl, starts⟩ := holds
  exact readBytes_append before field after starts wide

theorem readUInt64_of_holdsAt {value : UInt64}
    (holds : HoldsAt message offset (uint64Bytes value)) :
    readUInt64 message offset = .ok value := by
  obtain ⟨before, after, rfl, starts⟩ := holds
  exact readUInt64_append before after value starts

theorem readInt64_of_holdsAt {value : Int64}
    (holds : HoldsAt message offset (int64Bytes value)) :
    readInt64 message offset = .ok value := by
  rw [readInt64, readUInt64_of_holdsAt holds]
  exact congrArg Except.ok (Int64.toInt64_toUInt64 value)

theorem readUInt32_of_holdsAt {value : UInt32}
    (holds : HoldsAt message offset (uint32Bytes value)) :
    readUInt32 message offset = .ok value := by
  obtain ⟨before, after, rfl, starts⟩ := holds
  exact readUInt32_append before after value starts

theorem readUInt8_of_holdsAt {value : UInt8}
    (holds : HoldsAt message offset [value]) :
    readUInt8 message offset = .ok value := by
  have field : readBytes message offset 1 = .ok [value] :=
    readBytes_of_holdsAt holds rfl
  rw [readUInt8, readWord, field]
  exact congrArg Except.ok (by simp [ofBytes])

theorem readWord_of_holdsAt {width value : Nat}
    (holds : HoldsAt message offset (toBytes width value))
    (small : value < 256 ^ width) :
    readWord message offset width = .ok value := by
  rw [readWord, readBytes_of_holdsAt holds (toBytes_length _ _)]
  refine congrArg Except.ok ?_
  rw [ofBytes_toBytes, Nat.mod_eq_of_lt small]

theorem readTimeval_of_holdsAt {time : SnfsTimeval}
    (holds : HoldsAt message offset (timevalBytes time)) :
    readTimeval message offset = .ok time := by
  have fills := timevalMembers_fill time
  have seconds : HoldsAt (timevalBytes time) 0 (int64Bytes time.seconds) :=
    Struct.place_holdsAt fills 0 rfl rfl
  have useconds : HoldsAt (timevalBytes time) 8 (int64Bytes time.useconds) :=
    Struct.place_holdsAt fills 1 rfl rfl
  have first := readInt64_of_holdsAt (holds.nested seconds)
  have second := readInt64_of_holdsAt (holds.nested useconds)
  rw [Nat.add_zero] at first
  rw [readTimeval, first, second]
  rfl

/-- Bytes with a NUL among them start with a string. -/
theorem exists_key_append {bytes : Bytes} (ends : 0 ∈ bytes) :
    ∃ (string : CString) (rest : Bytes), bytes = string.key ++ rest := by
  obtain ⟨before, rest, rfl, noNul⟩ := List.eq_append_cons_of_mem ends
  exact ⟨⟨before, noNul⟩, rest, by simp [CString.key]⟩

/-- A buffer with a NUL is read up to its first one. -/
theorem readString_of_holdsAt {bytes : Bytes} {string : CString}
    (holds : HoldsAt message offset bytes)
    (named : stringAt bytes = some string) :
    readString message offset = .ok string := by
  have ends : 0 ∈ bytes := by
    rw [stringAt] at named
    split at named
    · assumption
    · cases named
  obtain ⟨before, after, rfl, rfl⟩ := holds
  obtain ⟨other, rest, rfl⟩ := exists_key_append ends
  rw [stringAt_key_append] at named
  rw [readString, List.append_assoc, List.drop_left, List.append_assoc,
    stringAt_key_append, named]

theorem readName_of_holdsAt {filename : FilenameBuf}
    (holds : HoldsAt message offset filename.bytes) :
    readString message offset = .ok filename.name :=
  readString_of_holdsAt holds (by simp only [stringAt, if_pos filename.ends]; rfl)

theorem messageType_of_holdsAt {type : MsgType}
    (holds : HoldsAt message 0 (typeBytes type))
    (named : ∀ word, type ≠ .other word) : messageType message = .ok type := by
  have read : MsgType.word type < 256 ^ 4 →
      messageType message = .ok (MsgType.ofWord (MsgType.word type)) := by
    intro small
    have word : readWord message 0 sizeofSnfsMsgType =
        .ok (MsgType.word type) := readWord_of_holdsAt holds small
    rw [messageType, word]
    rfl
  cases type with
  | other word => exact absurd rfl (named word)
  | _ => exact read (by decide)

end Reads

/-! ## What the server reads of a request -/

/-- Every argument the handler of this request reads has its value. -/
def Request.ReceivedIn (message : Bytes) : Request → Prop
  | .noop => True
  | .mount => True
  | .getattr fh => getattrArgs message = ⟨.ok fh⟩
  | .readdir dir count => readdirArgs message = ⟨.ok dir, .ok count⟩
  | .lookup dir filename => lookupArgs message = ⟨.ok dir, .ok filename.name⟩
  | .read file offset count =>
      readArgs message = ⟨.ok file, .ok offset, .ok count⟩
  | .write file offset count data _ =>
      (writeArgs message).file = .ok file ∧
        (writeArgs message).offset = .ok offset ∧
        (writeArgs message).count = .ok count ∧
        (writeArgs message).data count = .ok data
  | .setattr file which mode uid gid size atime mtime =>
      setattrArgs message = ⟨.ok file, .ok which, .ok mode, .ok uid, .ok gid,
        .ok size, .ok atime, .ok mtime⟩
  | .create filename mode => createArgs message = ⟨.ok filename.name, .ok mode⟩
  | .remove fh isDir => removeArgs message = ⟨.ok fh, .ok isDir⟩
  | .rename fh filename => renameArgs message = ⟨.ok fh, .ok filename.name⟩
  | .mkdir dirname mode => mkdirArgs message = ⟨.ok dirname.name, .ok mode⟩

/-- Where the arguments stand in a request. -/
def argsOffsets : MsgType → List Nat
  | .getattr => [4]
  | .readdir => [4, 12]
  | .lookup => [4, 12]
  | .read => [4, 12, 20]
  | .write => [4, 12, 20]
  | .setattr => [4, 12, 20, 28, 36, 44, 52, 68]
  | .create => [4, 260]
  | .remove => [4, 12]
  | .rename => [4, 12]
  | .mkdir => [4, 260]
  | _ => []

theorem argsOffsets_eq (type : MsgType) :
    argsOffsets type = (argsStruct type).offsets.map (4 + ·) := by
  cases type <;> rfl

/-- The sizes `snfs_req_size` gives. -/
theorem snfsReqSize_eq (type : MsgType) :
    snfsReqSize type = sizeofSnfsMsgType + (argsStruct type).sizeof := by
  cases type with
  | other word =>
      have noArgs : 4 = sizeofSnfsMsgType + snfsNoopArgs.sizeof := rfl
      exact noArgs
  | _ => rfl

section Requests

variable (gap : Nat → UInt8) (rest : Bytes)

theorem Request.sent_holdsAt (request : Request) (index : Nat) {offset : Nat}
    {value : Bytes} (starts : (argsOffsets request.type)[index]? = some offset)
    (found : request.members[index]? = some value) :
    HoldsAt (request.sent gap rest) offset value := by
  rw [argsOffsets_eq, List.getElem?_map] at starts
  obtain ⟨start, placed, rfl⟩ := Option.map_eq_some_iff.mp starts
  have holds : HoldsAt
      ((argsStruct request.type).place gap request.members) start value :=
    Struct.place_holdsAt request.members_fill index placed found
  rw [request.sent_eq, ← typeBytes_length request.type]
  exact holds.within _ _

theorem Request.payload_holdsAt (request : Request) :
    HoldsAt (request.sent gap rest) (snfsReqSize request.type)
      request.payload := by
  refine ⟨_, [], by rw [request.sent_eq, List.append_nil], ?_⟩
  rw [List.length_append, typeBytes_length,
    Struct.place_length request.members_fill, snfsReqSize_eq]
  rfl

theorem Request.sent_length (request : Request) :
    (request.sent gap rest).length =
      snfsReqSize request.type + request.payload.length := by
  rw [request.sent_eq, List.length_append, List.length_append, typeBytes_length,
    Struct.place_length request.members_fill, snfsReqSize_eq]
  rfl

theorem Request.messageType_sent (request : Request) :
    messageType (request.sent gap rest) = .ok request.type := by
  apply messageType_of_holdsAt
  · rw [request.sent_eq, List.append_assoc]
    exact ⟨[], _, rfl, rfl⟩
  · intro word other
    cases request <;> cases other

/-- The handler finds every argument where it looks for it. -/
theorem Request.receivedIn_sent (request : Request) :
    Request.ReceivedIn (request.sent gap rest) request := by
  have holds := Request.sent_holdsAt gap rest request
  cases request with
  | noop => trivial
  | mount => trivial
  | getattr fh =>
      rw [Request.ReceivedIn, getattrArgs, readUInt64_of_holdsAt (holds 0 rfl rfl)]
  | readdir dir count =>
      rw [Request.ReceivedIn, readdirArgs, readUInt64_of_holdsAt (holds 0 rfl rfl),
        readUInt64_of_holdsAt (holds 1 rfl rfl)]
  | lookup dir filename =>
      rw [Request.ReceivedIn, lookupArgs, readUInt64_of_holdsAt (holds 0 rfl rfl),
        readName_of_holdsAt (holds 1 rfl rfl)]
  | read file offset count =>
      rw [Request.ReceivedIn, readArgs, readUInt64_of_holdsAt (holds 0 rfl rfl),
        readInt64_of_holdsAt (holds 1 rfl rfl),
        readUInt64_of_holdsAt (holds 2 rfl rfl)]
  | write file offset count data whole =>
      have dataAt := Request.payload_holdsAt gap rest
        (.write file offset count data whole)
      exact ⟨readUInt64_of_holdsAt (holds 0 rfl rfl),
        readInt64_of_holdsAt (holds 1 rfl rfl),
        readUInt64_of_holdsAt (holds 2 rfl rfl),
        readBytes_of_holdsAt dataAt whole⟩
  | setattr file which mode uid gid size atime mtime =>
      rw [Request.ReceivedIn, setattrArgs,
        readUInt64_of_holdsAt (holds 0 rfl rfl),
        readUInt64_of_holdsAt (holds 1 rfl rfl),
        readUInt64_of_holdsAt (holds 2 rfl rfl),
        readUInt64_of_holdsAt (holds 3 rfl rfl),
        readUInt64_of_holdsAt (holds 4 rfl rfl),
        readInt64_of_holdsAt (holds 5 rfl rfl),
        readTimeval_of_holdsAt (holds 6 rfl rfl),
        readTimeval_of_holdsAt (holds 7 rfl rfl)]
  | create filename mode =>
      rw [Request.ReceivedIn, createArgs, readName_of_holdsAt (holds 0 rfl rfl),
        readUInt32_of_holdsAt (holds 1 rfl rfl)]
  | remove fh isDir =>
      rw [Request.ReceivedIn, removeArgs, readUInt64_of_holdsAt (holds 0 rfl rfl),
        readUInt8_of_holdsAt (holds 1 rfl rfl)]
  | rename fh filename =>
      rw [Request.ReceivedIn, renameArgs, readUInt64_of_holdsAt (holds 0 rfl rfl),
        readName_of_holdsAt (holds 1 rfl rfl)]
  | mkdir dirname mode =>
      rw [Request.ReceivedIn, mkdirArgs, readName_of_holdsAt (holds 0 rfl rfl),
        readUInt32_of_holdsAt (holds 1 rfl rfl)]

end Requests

/-! ## Equal bytes have equal values -/

theorem int64Bytes_injective : Function.Injective int64Bytes := by
  intro first second same
  have words := handleBytes_injective same
  rw [← Int64.toInt64_toUInt64 first, words, Int64.toInt64_toUInt64]

theorem toBytes_injective {width first second : Nat}
    (firstSmall : first < 256 ^ width) (secondSmall : second < 256 ^ width)
    (same : toBytes width first = toBytes width second) : first = second := by
  have values := congrArg ofBytes same
  rwa [ofBytes_toBytes, ofBytes_toBytes, Nat.mod_eq_of_lt firstSmall,
    Nat.mod_eq_of_lt secondSmall] at values

theorem uint32Bytes_injective : Function.Injective uint32Bytes := by
  intro first second same
  exact UInt32.toNat_inj.mp
    (toBytes_injective first.toNat_lt second.toNat_lt same)

theorem timevalBytes_injective : Function.Injective timevalBytes := by
  intro first second same
  have members := Struct.place_injective (timevalMembers_fill first)
    (timevalMembers_fill second) same
  obtain ⟨seconds, useconds, _⟩ := by
    simpa only [timevalMembers, List.cons.injEq] using members
  cases first
  cases second
  rw [SnfsTimeval.mk.injEq]
  exact ⟨int64Bytes_injective seconds, int64Bytes_injective useconds⟩

theorem FilenameBuf.bytes_injective : Function.Injective FilenameBuf.bytes := by
  intro first second same
  cases first
  cases second
  cases same
  rfl

@[simp]
theorem handleBytes_inj {first second : Fhandle} :
    handleBytes first = handleBytes second ↔ first = second :=
  handleBytes_injective.eq_iff

@[simp]
theorem int64Bytes_inj {first second : Int64} :
    int64Bytes first = int64Bytes second ↔ first = second :=
  int64Bytes_injective.eq_iff

@[simp]
theorem uint32Bytes_inj {first second : UInt32} :
    uint32Bytes first = uint32Bytes second ↔ first = second :=
  uint32Bytes_injective.eq_iff

@[simp]
theorem timevalBytes_inj {first second : SnfsTimeval} :
    timevalBytes first = timevalBytes second ↔ first = second :=
  timevalBytes_injective.eq_iff

@[simp]
theorem FilenameBuf.bytes_inj {first second : FilenameBuf} :
    first.bytes = second.bytes ↔ first = second :=
  FilenameBuf.bytes_injective.eq_iff

/-- Type, members and payload are all there is to a request. -/
theorem Request.eq_of_parts {first second : Request}
    (types : first.type = second.type) (members : first.members = second.members)
    (payloads : first.payload = second.payload) : first = second := by
  cases first <;> cases second <;>
    first
      | cases types; done
      | rfl
      | simpa [Request.members, Request.payload, and_assoc]
          using And.intro members payloads

theorem Request.sent_injective {gap otherGap : Nat → UInt8} {rest otherRest : Bytes}
    {first second : Request}
    (same : first.sent gap rest = second.sent otherGap otherRest) :
    first = second := by
  have types : first.type = second.type := by
    have read := Request.messageType_sent gap rest first
    rw [same, Request.messageType_sent] at read
    exact (Except.ok.inj read).symm
  rw [first.sent_eq, second.sent_eq, types, List.append_assoc,
    List.append_assoc] at same
  have firstFill := first.members_fill
  rw [types] at firstFill
  obtain ⟨places, payloads⟩ := List.append_inj (List.append_cancel_left same)
    ((Struct.place_length firstFill).trans
      (Struct.place_length second.members_fill).symm)
  exact Request.eq_of_parts types
    (Struct.place_injective firstFill second.members_fill places) payloads

/-! ## What the client reads of a reply -/

/-- The fields of an `fattr` at an offset. -/
structure Fattr.ReceivedAt (message : Bytes) (offset : Nat) (attr : Fattr) :
    Prop where
  type : readWord message offset 4 = .ok (Ftype.word attr.type)
  mode : readUInt64 message (offset + 4) = .ok attr.mode
  nlink : readUInt64 message (offset + 12) = .ok attr.nlink
  uid : readUInt64 message (offset + 20) = .ok attr.uid
  gid : readUInt64 message (offset + 28) = .ok attr.gid
  size : readUInt64 message (offset + 36) = .ok attr.size
  rdev : readUInt64 message (offset + 44) = .ok attr.rdev
  fsid : readUInt64 message (offset + 52) = .ok attr.fsid
  fileid : readUInt64 message (offset + 60) = .ok attr.fileid
  atime : readTimeval message (offset + 68) = .ok attr.atime
  mtime : readTimeval message (offset + 84) = .ok attr.mtime
  ctime : readTimeval message (offset + 100) = .ok attr.ctime

/-- A directory entry at an offset, with its name read as a string. -/
structure Snfsentry.ReceivedAt (message : Bytes) (offset : Nat)
    (entry : Snfsentry) : Prop where
  fileid : readUInt64 message offset = .ok entry.fileid
  filename : ∃ name, stringAt entry.filename = some name ∧
    readString message (offset + 8) = .ok name
  buffer : readBytes message (offset + 8) snfsMaxFilenameBuf = .ok entry.filename

/-- Every field of the reply is read back from the message. -/
def Reply.ReceivedIn (message : Bytes) : Reply → Prop
  | .noop => True
  | .mount root => readUInt64 message 4 = .ok root
  | .getattr attributes => Fattr.ReceivedAt message 4 attributes
  | .readdir numEntries entries => readUInt64 message 4 = .ok numEntries ∧
      ∀ index entry, entries[index]? = some entry →
        Snfsentry.ReceivedAt message (12 + sizeofSnfsentry * index) entry
  | .lookup handle attributes => readUInt64 message 4 = .ok handle ∧
      Fattr.ReceivedAt message 12 attributes
  | .read count eof data => readUInt64 message 4 = .ok count ∧
      readUInt64 message 12 = .ok eof ∧
      readBytes message 20 count.toNat = .ok data
  | .write count => readUInt64 message 4 = .ok count
  | .setattr which => readUInt64 message 4 = .ok which
  | .create handle => readUInt64 message 4 = .ok handle
  | .remove => True
  | .rename handle => readUInt64 message 4 = .ok handle
  | .mkdir handle => readUInt64 message 4 = .ok handle
  | .error error => readWord message 4 4 = .ok (SnfsError.word error)

/-- The size a handler sends a reply with. -/
abbrev Reply.size (reply : Reply) : Nat :=
  sizeofSnfsMsgType + Reply.structSize reply + Reply.payload reply

theorem Reply.structSize_eq (reply : Reply) :
    Reply.structSize reply = (repStruct (Reply.type reply)).sizeof := by
  cases reply <;> simp only [Reply.structSize, Reply.type] <;> rfl

theorem entryMembers_fill {entry : Snfsentry} (whole : Snfsentry.Whole entry) :
    Fills snfsentry.members (entryMembers entry) := by
  simp [snfsentry, entryMembers, word64, filenameBuf, whole.length_eq]

theorem entryBytes_length {entry : Snfsentry} (whole : Snfsentry.Whole entry) :
    (entryBytes entry).length = sizeofSnfsentry :=
  Struct.place_length (entryMembers_fill whole)

theorem entryBytes_length_of_mem {entries : List Snfsentry}
    (whole : ∀ entry ∈ entries, Snfsentry.Whole entry) :
    ∀ block ∈ entries.map entryBytes, block.length = sizeofSnfsentry := by
  intro block member
  obtain ⟨entry, inside, rfl⟩ := List.mem_map.mp member
  exact entryBytes_length (whole entry inside)

theorem Reply.payload_eq {reply : Reply} (whole : Reply.Whole reply) :
    Reply.payload reply = (Reply.array reply).length := by
  cases reply with
  | readdir numEntries entries =>
      rw [Reply.payload, Reply.array, length_flatten_of_wide
        (entryBytes_length_of_mem whole), List.length_map]
  | _ => rfl

section Replies

variable (gap : Nat → UInt8) (rest : Bytes)

/-- Nothing is cut off a reply. -/
theorem Reply.sent_whole {reply : Reply} (whole : Reply.Whole reply) :
    Reply.sent gap rest reply (Reply.size reply) =
      typeBytes (Reply.type reply) ++
        (repStruct (Reply.type reply)).place gap (Reply.members reply) ++
        Reply.array reply := by
  apply Reply.sent_eq
  rw [← Reply.structSize_eq, ← Reply.payload_eq whole]

/-- Where the fields stand in a reply. -/
def repOffsets : MsgType → List Nat
  | .lookup => [4, 12]
  | .read => [4, 12]
  | .mount => [4]
  | .getattr => [4]
  | .readdir => [4]
  | .write => [4]
  | .setattr => [4]
  | .create => [4]
  | .rename => [4]
  | .mkdir => [4]
  | .error => [4]
  | _ => []

theorem repOffsets_eq (type : MsgType) :
    repOffsets type = (repStruct type).offsets.map (4 + ·) := by
  cases type <;> rfl

theorem Reply.sent_holdsAt {reply : Reply} (whole : Reply.Whole reply)
    (index : Nat) {offset : Nat} {value : Bytes}
    (starts : (repOffsets (Reply.type reply))[index]? = some offset)
    (found : (Reply.members reply)[index]? = some value) :
    HoldsAt (Reply.sent gap rest reply (Reply.size reply)) offset value := by
  rw [repOffsets_eq, List.getElem?_map] at starts
  obtain ⟨start, placed, rfl⟩ := Option.map_eq_some_iff.mp starts
  have holds : HoldsAt ((repStruct (Reply.type reply)).place gap
      (Reply.members reply)) start value :=
    Struct.place_holdsAt (Reply.members_fill reply) index placed found
  rw [Reply.sent_whole gap rest whole,
    ← typeBytes_length (Reply.type reply)]
  exact holds.within _ _

theorem Reply.array_holdsAt {reply : Reply} (whole : Reply.Whole reply) :
    HoldsAt (Reply.sent gap rest reply (Reply.size reply))
      (sizeofSnfsMsgType + Reply.structSize reply) (Reply.array reply) := by
  refine ⟨_, [], by rw [Reply.sent_whole gap rest whole, List.append_nil], ?_⟩
  rw [List.length_append, typeBytes_length,
    Struct.place_length (Reply.members_fill reply), ← Reply.structSize_eq]
  rfl

theorem Reply.sent_length {reply : Reply} (whole : Reply.Whole reply) :
    (Reply.sent gap rest reply (Reply.size reply)).length = Reply.size reply := by
  rw [Reply.sent_whole gap rest whole, List.length_append,
    List.length_append, typeBytes_length,
    Struct.place_length (Reply.members_fill reply), ← Reply.structSize_eq,
    ← Reply.payload_eq whole]
  rfl

theorem Reply.messageType_sent {reply : Reply} (whole : Reply.Whole reply) :
    messageType (Reply.sent gap rest reply (Reply.size reply)) =
      .ok (Reply.type reply) := by
  apply messageType_of_holdsAt
  · rw [Reply.sent_whole gap rest whole, List.append_assoc]
    exact ⟨[], _, rfl, rfl⟩
  · intro word other
    cases reply <;> cases other

end Replies

theorem Fattr.receivedAt {message : Bytes} {offset : Nat} {attr : Fattr}
    (holds : HoldsAt message offset (fattrBytes attr)) :
    Fattr.ReceivedAt message offset attr := by
  have inside : ∀ (index : Nat) {start : Nat} {value : Bytes},
      fattr.offsets[index]? = some start →
      (fattrMembers attr)[index]? = some value →
      HoldsAt message (offset + start) value := by
    intro index start value starts found
    exact holds.nested
      (Struct.place_holdsAt (fattrMembers_fill attr) index starts found)
  have small : Ftype.word attr.type < 256 ^ 4 := by
    cases attr.type <;> decide
  exact {
    type := readWord_of_holdsAt (inside 0 rfl rfl) small
    mode := readUInt64_of_holdsAt (inside 1 rfl rfl)
    nlink := readUInt64_of_holdsAt (inside 2 rfl rfl)
    uid := readUInt64_of_holdsAt (inside 3 rfl rfl)
    gid := readUInt64_of_holdsAt (inside 4 rfl rfl)
    size := readUInt64_of_holdsAt (inside 5 rfl rfl)
    rdev := readUInt64_of_holdsAt (inside 6 rfl rfl)
    fsid := readUInt64_of_holdsAt (inside 7 rfl rfl)
    fileid := readUInt64_of_holdsAt (inside 8 rfl rfl)
    atime := readTimeval_of_holdsAt (inside 9 rfl rfl)
    mtime := readTimeval_of_holdsAt (inside 10 rfl rfl)
    ctime := readTimeval_of_holdsAt (inside 11 rfl rfl) }

theorem Snfsentry.receivedAt {message : Bytes} {offset : Nat} {entry : Snfsentry}
    (whole : Snfsentry.Whole entry)
    (holds : HoldsAt message offset (entryBytes entry)) :
    Snfsentry.ReceivedAt message offset entry := by
  have fills := entryMembers_fill whole
  have fileid : HoldsAt (entryBytes entry) 0 (uint64Bytes entry.fileid) :=
    Struct.place_holdsAt fills 0 rfl rfl
  have filename : HoldsAt (entryBytes entry) 8 entry.filename :=
    Struct.place_holdsAt fills 1 rfl rfl
  have first := readUInt64_of_holdsAt (holds.nested fileid)
  rw [Nat.add_zero] at first
  obtain ⟨name, rest, starts⟩ := exists_key_append whole.ends
  have named : stringAt entry.filename = some name := by
    rw [starts, stringAt_key_append]
  exact ⟨first, ⟨name, named, readString_of_holdsAt (holds.nested filename) named⟩,
    readBytes_of_holdsAt (holds.nested filename) whole.length_eq⟩

/-- The client finds every field where it looks for it. -/
theorem Reply.receivedIn_sent (gap : Nat → UInt8) (rest : Bytes) {reply : Reply}
    (whole : Reply.Whole reply) (announced : Reply.Announced reply) :
    Reply.ReceivedIn (Reply.sent gap rest reply (Reply.size reply)) reply := by
  have holds := Reply.sent_holdsAt gap rest whole
  have arrayAt := Reply.array_holdsAt gap rest whole
  cases reply with
  | noop => trivial
  | mount root => exact readUInt64_of_holdsAt (holds 0 rfl rfl)
  | getattr attributes => exact Fattr.receivedAt (holds 0 rfl rfl)
  | readdir numEntries entries =>
      refine ⟨readUInt64_of_holdsAt (holds 0 rfl rfl), ?_⟩
      intro index entry found
      refine Snfsentry.receivedAt
        (whole entry (List.mem_of_getElem? found)) ?_
      exact arrayAt.nested (holdsAt_flatten (entryBytes_length_of_mem whole)
        (by rw [List.getElem?_map, found]; rfl))
  | lookup handle attributes =>
      exact ⟨readUInt64_of_holdsAt (holds 0 rfl rfl),
        Fattr.receivedAt (holds 1 rfl rfl)⟩
  | read count eof data =>
      exact ⟨readUInt64_of_holdsAt (holds 0 rfl rfl),
        readUInt64_of_holdsAt (holds 1 rfl rfl),
        readBytes_of_holdsAt arrayAt announced.symm⟩
  | write count => exact readUInt64_of_holdsAt (holds 0 rfl rfl)
  | setattr which => exact readUInt64_of_holdsAt (holds 0 rfl rfl)
  | create handle => exact readUInt64_of_holdsAt (holds 0 rfl rfl)
  | remove => trivial
  | rename handle => exact readUInt64_of_holdsAt (holds 0 rfl rfl)
  | mkdir handle => exact readUInt64_of_holdsAt (holds 0 rfl rfl)
  | error error =>
      refine readWord_of_holdsAt (holds 0 rfl rfl) ?_
      cases error <;> decide

theorem Ftype.word_injective : Function.Injective Ftype.word := by
  intro first second same
  cases first <;> cases second <;> first | rfl | cases same

theorem SnfsError.word_injective : Function.Injective SnfsError.word := by
  intro first second same
  cases first <;> cases second <;> first | rfl | cases same

@[simp]
theorem ftypeBytes_inj {first second : Ftype} :
    toBytes 4 (Ftype.word first) = toBytes 4 (Ftype.word second) ↔
      first = second := by
  have small : ∀ type : Ftype, Ftype.word type < 256 ^ 4 := by
    intro type
    cases type <;> decide
  exact ⟨fun same => Ftype.word_injective
    (toBytes_injective (small first) (small second) same), by rintro rfl; rfl⟩

@[simp]
theorem errorBytes_inj {first second : SnfsError} :
    toBytes 4 (SnfsError.word first) = toBytes 4 (SnfsError.word second) ↔
      first = second := by
  have small : ∀ error : SnfsError, SnfsError.word error < 256 ^ 4 := by
    intro error
    cases error <;> decide
  exact ⟨fun same => SnfsError.word_injective
    (toBytes_injective (small first) (small second) same), by rintro rfl; rfl⟩

theorem fattrBytes_injective : Function.Injective fattrBytes := by
  intro first second same
  have members := Struct.place_injective (fattrMembers_fill first)
    (fattrMembers_fill second) same
  cases first
  cases second
  simpa [fattrMembers] using members

@[simp]
theorem fattrBytes_inj {first second : Fattr} :
    fattrBytes first = fattrBytes second ↔ first = second :=
  fattrBytes_injective.eq_iff

theorem entryBytes_injective {first second : Snfsentry}
    (firstWhole : Snfsentry.Whole first) (secondWhole : Snfsentry.Whole second)
    (same : entryBytes first = entryBytes second) : first = second := by
  have members := Struct.place_injective (entryMembers_fill firstWhole)
    (entryMembers_fill secondWhole) same
  cases first
  cases second
  simpa [entryMembers] using members

theorem entries_injective {first second : List Snfsentry}
    (firstWhole : ∀ entry ∈ first, Snfsentry.Whole entry)
    (secondWhole : ∀ entry ∈ second, Snfsentry.Whole entry)
    (lengths : first.length = second.length)
    (same : (first.map entryBytes).flatten = (second.map entryBytes).flatten) :
    first = second := by
  induction first generalizing second with
  | nil => exact (List.length_eq_zero_iff.mp lengths.symm).symm
  | cons head tail inductionHypothesis =>
      cases second with
      | nil => cases lengths
      | cons otherHead otherTail =>
          have headWhole := firstWhole head List.mem_cons_self
          have otherWhole := secondWhole otherHead List.mem_cons_self
          rw [List.map_cons, List.map_cons, List.flatten_cons,
            List.flatten_cons] at same
          obtain ⟨heads, tails⟩ := List.append_inj same
            ((entryBytes_length headWhole).trans (entryBytes_length otherWhole).symm)
          rw [entryBytes_injective headWhole otherWhole heads,
            inductionHypothesis
              (fun entry member => firstWhole entry (List.mem_cons_of_mem _ member))
              (fun entry member => secondWhole entry (List.mem_cons_of_mem _ member))
              (Nat.succ.inj lengths) tails]

/-- Type, members and array are all there is to a reply. -/
theorem Reply.eq_of_parts {first second : Reply}
    (firstWhole : Reply.Whole first) (secondWhole : Reply.Whole second)
    (firstAnnounced : Reply.Announced first)
    (secondAnnounced : Reply.Announced second)
    (types : Reply.type first = Reply.type second)
    (members : Reply.members first = Reply.members second)
    (arrays : Reply.array first = Reply.array second) : first = second := by
  cases first <;> cases second <;>
    first
      | cases types; done
      | rfl
      | skip
  case readdir.readdir =>
      simp only [Reply.members, handleBytes_inj, List.cons.injEq, and_true]
        at members
      subst members
      rw [entries_injective firstWhole secondWhole
        (firstAnnounced.symm.trans secondAnnounced) arrays]
  all_goals
    simpa [Reply.members, Reply.array, and_assoc] using And.intro members arrays

theorem Reply.parts_of_sent_eq {gap otherGap : Nat → UInt8}
    {rest otherRest : Bytes} {first second : Reply}
    (firstWhole : Reply.Whole first) (secondWhole : Reply.Whole second)
    (same : Reply.sent gap rest first (Reply.size first) =
      Reply.sent otherGap otherRest second (Reply.size second)) :
    Reply.type first = Reply.type second ∧
      Reply.members first = Reply.members second ∧
      Reply.array first = Reply.array second := by
  have types : Reply.type first = Reply.type second := by
    have read := Reply.messageType_sent gap rest firstWhole
    rw [same, Reply.messageType_sent _ _ secondWhole] at read
    exact (Except.ok.inj read).symm
  rw [Reply.sent_whole _ _ firstWhole, Reply.sent_whole _ _ secondWhole,
    types, List.append_assoc, List.append_assoc] at same
  have firstFill := Reply.members_fill first
  have secondFill := Reply.members_fill second
  rw [types] at firstFill
  obtain ⟨places, arrays⟩ := List.append_inj (List.append_cancel_left same)
    ((Struct.place_length firstFill).trans (Struct.place_length secondFill).symm)
  exact ⟨types, Struct.place_injective firstFill secondFill places, arrays⟩

theorem Reply.sent_injective {gap otherGap : Nat → UInt8} {rest otherRest : Bytes}
    {first second : Reply} (firstWhole : Reply.Whole first)
    (secondWhole : Reply.Whole second) (firstAnnounced : Reply.Announced first)
    (secondAnnounced : Reply.Announced second)
    (same : Reply.sent gap rest first (Reply.size first) =
      Reply.sent otherGap otherRest second (Reply.size second)) :
    first = second := by
  obtain ⟨types, members, arrays⟩ :=
    Reply.parts_of_sent_eq firstWhole secondWhole same
  exact Reply.eq_of_parts firstWhole secondWhole firstAnnounced
    secondAnnounced types members arrays

/-! ## The requests of the client and the replies of the server -/

/-- The buffer a client fills from where a string lies. -/
def filenameBufOf (string : CString) (following : Nat → UInt8) : FilenameBuf where
  bytes := filenameField string following
  length_eq := filenameField_length string following
  ends := List.mem_append_right _ List.mem_cons_self

/-- REMOVE is the only request with padding. -/
theorem argsStruct_gapless {type : MsgType} (notRemove : type ≠ .remove) :
    (argsStruct type).Gapless := by
  cases type with
  | remove => exact absurd rfl notRemove
  | other word =>
      have noArgs : snfsNoopArgs.Gapless := rfl
      exact noArgs
  | _ => rfl

theorem Request.sent_of_gapless (gap : Nat → UInt8) (rest : Bytes)
    (request : Request) (notRemove : request.type ≠ .remove) :
    request.sent gap rest =
      typeBytes request.type ++ request.members.flatten ++ request.payload := by
  rw [request.sent_eq, Struct.place_of_gapless request.members_fill
    (argsStruct_gapless notRemove)]

section Callbacks

variable (gap : Nat → UInt8) (rest : Bytes) (following : Nat → UInt8)

theorem mountMessage_eq : mountMessage = Request.sent gap rest .mount := by
  rw [Request.sent_of_gapless gap rest _ (by simp [Request.type])]
  rfl

theorem lookupMessage_eq (dir : Fhandle) (filename : CString) :
    lookupMessage dir filename following =
      Request.sent gap rest (.lookup dir (filenameBufOf filename following)) := by
  rw [Request.sent_of_gapless gap rest _ (by simp [Request.type])]
  simp [lookupMessage, Request.type, Request.members, Request.payload,
    filenameBufOf]

theorem createMessage_eq (filename : CString) (mode : UInt32) :
    createMessage filename following mode =
      Request.sent gap rest (.create (filenameBufOf filename following) mode) := by
  rw [Request.sent_of_gapless gap rest _ (by simp [Request.type])]
  simp [createMessage, Request.type, Request.members, Request.payload,
    filenameBufOf, uint32Bytes]

theorem renameMessage_eq (fh : Fhandle) (filename : CString) :
    renameMessage fh filename following =
      Request.sent gap rest (.rename fh (filenameBufOf filename following)) := by
  rw [Request.sent_of_gapless gap rest _ (by simp [Request.type])]
  simp [renameMessage, Request.type, Request.members, Request.payload,
    filenameBufOf]

theorem mkdirMessage_eq (dirname : CString) (mode : UInt32) :
    mkdirMessage dirname following mode =
      Request.sent gap rest (.mkdir (filenameBufOf dirname following) mode) := by
  rw [Request.sent_of_gapless gap rest _ (by simp [Request.type])]
  simp [mkdirMessage, Request.type, Request.members, Request.payload,
    filenameBufOf, uint32Bytes]

end Callbacks

/-- A reply that announces what it carries, with whole entries. -/
abbrev WholeReply :=
  {reply : Reply // Reply.Whole reply ∧ Reply.Announced reply}

/-- Every reply of the server is one, sent with its size. -/
theorem exists_wholeReply {Fs : Type} {env : Env Fs} {message : Bytes}
    {server next : Server Fs} (readsAtMost : ReadsAtMost env.kernel)
    (served : serve env message server = .ok next) :
    ∃ reply : WholeReply,
      next.sent = (reply.val, Reply.size reply.val) :: server.sent := by
  obtain ⟨word, _, handled⟩ := bind_eq_ok.mp served
  obtain ⟨held, replied, _⟩ := dispatch_replied handled
  obtain ⟨reply, size, sent, fits⟩ := replied.sent
  have announced := fits.announced readsAtMost
  rw [fits.size_eq] at sent
  exact ⟨⟨reply, fits.whole, announced⟩, sent⟩

/-- Whatever fills the padding and lies behind the structures: what is sent has
the size handed to the socket, every field is read back from inside it, and
equal bytes are equal messages. -/
theorem wire_round_trip (gap otherGap : Nat → UInt8) (rest otherRest : Bytes) :
    (∀ request : Request,
      (request.sent gap rest).length =
        snfsReqSize request.type + request.payload.length ∧
      messageType (request.sent gap rest) = .ok request.type ∧
      Request.ReceivedIn (request.sent gap rest) request) ∧
    (∀ first second : Request,
      first.sent gap rest = second.sent otherGap otherRest → first = second) ∧
    (∀ reply : WholeReply,
      (Reply.sent gap rest reply.val (Reply.size reply.val)).length =
        Reply.size reply.val ∧
      messageType (Reply.sent gap rest reply.val (Reply.size reply.val)) =
        .ok (Reply.type reply.val) ∧
      Reply.ReceivedIn (Reply.sent gap rest reply.val (Reply.size reply.val))
        reply.val) ∧
    (∀ first second : WholeReply,
      Reply.sent gap rest first.val (Reply.size first.val) =
        Reply.sent otherGap otherRest second.val (Reply.size second.val) →
      first = second) := by
  refine ⟨?_, ?_, ?_, ?_⟩
  · intro request
    exact ⟨Request.sent_length gap rest request, Request.messageType_sent gap rest request,
      Request.receivedIn_sent gap rest request⟩
  · intro first second same
    exact Request.sent_injective same
  · rintro ⟨reply, whole, announced⟩
    exact ⟨Reply.sent_length gap rest whole,
      Reply.messageType_sent gap rest whole,
      Reply.receivedIn_sent gap rest whole announced⟩
  · rintro ⟨first, firstWhole, firstAnnounced⟩
      ⟨second, secondWhole, secondAnnounced⟩ same
    exact Subtype.ext (Reply.sent_injective firstWhole secondWhole
      firstAnnounced secondAnnounced same)

end ChlorosSnfs.Snfs.RoundTrip
