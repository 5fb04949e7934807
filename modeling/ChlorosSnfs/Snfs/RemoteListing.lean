import ChlorosSnfs.Snfs.Directories
import ChlorosSnfs.Snfs.FileCalls
import ChlorosSnfs.Snfs.FoundPaths
import ChlorosSnfs.Snfs.RoundTrip
import Mathlib.Data.List.Nodup

/-!
# A directory listed through the client

`snfs_readdir` asks once, for 256 entries, and FUSE does not ask again.  The
names arrive as they are, so the listing is whole exactly when the directory has
no more than 256 entries.
-/

set_option autoImplicit false

namespace ChlorosSnfs.Snfs.RemoteListing

open ChlorosSnfs.Snfs.Fhandledb
open ChlorosSnfs.Snfs.Messages
open ChlorosSnfs.Snfs.Syscalls
open ChlorosSnfs.Snfs.Handlers
open ChlorosSnfs.Snfs.ServeLoop
open ChlorosSnfs.Snfs.HandlerEffects
open ChlorosSnfs.Snfs.Client
open ChlorosSnfs.Snfs.PathWalk
open ChlorosSnfs.Snfs.ClientCalls
open ChlorosSnfs.Snfs.Wire
open ChlorosSnfs.Snfs.RoundTrip
open ChlorosSnfs.Snfs.FileCalls
open ChlorosSnfs.Snfs.Directories
open ChlorosSnfs.Snfs.FoundPaths

variable {Fs : Type}

/-! ## The names of a reply -/

/-- A name of at most 255 bytes arrives whole. -/
theorem stringAt_of_shows {entry : Dirent} {sent : Snfsentry}
    (short : entry.name.bytes.length ≤ snfsMaxFilenameLength)
    (shows : Shows entry sent) : stringAt sent.filename = some entry.name := by
  obtain ⟨following, rfl⟩ := shows
  obtain ⟨rest, field⟩ := filenameField_eq entry.name following
  have filename : (toSnfsentry entry following).filename =
      filenameField entry.name following := rfl
  rw [filename, field, stringAt_key_append, sent_of_short short]

theorem fillNames_of_shows {entries : List Dirent} {sent : List Snfsentry}
    (short : ∀ entry ∈ entries,
      entry.name.bytes.length ≤ snfsMaxFilenameLength)
    (shows : List.Forall₂ Shows entries sent) :
    fillNames sent.length sent = .ok (entries.map Dirent.name) := by
  induction shows with
  | nil => rfl
  | cons first rest inductionHypothesis =>
      have name := stringAt_of_shows (short _ List.mem_cons_self) first
      have others := inductionHypothesis fun entry member =>
        short entry (List.mem_cons_of_mem _ member)
      rw [List.length_cons, fillNames, name]
      simp only [others, ok_bind]
      rfl

theorem length_of_shows {entries : List Dirent} {sent : List Snfsentry}
    (shows : List.Forall₂ Shows (entries.take 256) sent) :
    (UInt64.ofNat sent.length).toNat = sent.length := by
  have length := shows.length_eq
  rw [List.length_take] at length
  rw [UInt64.toNat_ofNat']
  omega

/-! ## A call that returns 0 -/

section Returned

variable {link : Link Fs} {view : DirView Fs} {root : Fhandle} {path : CString}
  {server after : Server Fs} {names : List CString}

theorem snfsReaddir_eq_zero
    (returned : snfsReaddir link root path server = .ok ((0, names), after)) :
    ∃ found handle dirPath number sent size rest,
      Finds link root path server found handle dirPath ∧
      handleReaddir (link.env (tokens path).length) ⟨.ok handle, .ok 256⟩ found =
        .ok after ∧
      after.sent = (.readdir number sent, size) :: rest ∧
      fillNames number.toNat sent = .ok names := by
  rw [snfsReaddir, bind_eq_ok] at returned
  obtain ⟨⟨⟨isFound, handle⟩, found⟩, called, returned⟩ := returned
  cases isFound with
  | false => cases returned
  | true =>
      simp only [Bool.not_true, Bool.false_eq_true, if_false, bind_eq_ok]
        at returned
      obtain ⟨⟨reply, next⟩, replied, returned⟩ := returned
      split at returned
      · rename_i number sent _ same
        cases same
        rw [bind_eq_ok] at returned
        obtain ⟨filled, fills, returned⟩ := returned
        cases pure_eq_ok.mp returned
        obtain ⟨served, ⟨size, rest, sentReply⟩, _⟩ := sendRequest_eq_some replied
        have received := Request.receivedIn_sent noGap [] (.readdir handle 256)
        rw [Request.ReceivedIn] at received
        rw [serve_of_messageType (Request.messageType_sent noGap [] _),
          Request.type, dispatch, received] at served
        have handled := served
        cases handleReaddir_ends handled with
        | missing missing =>
            exact absurd missing.refused (not_refused_of_reply sentReply rfl)
        | openFails _ _ => cases sentReply
        | listFails _ _ => cases sentReply
        | @listed dirPath _ _ _ _ _ isOpen _ =>
            obtain ⟨_, isDirectory, _⟩ := isOpen.opens
            obtain ⟨_, isFound, _⟩ := isDirectory.isFound
            obtain ⟨_, same, stored⟩ := isFound.stored
            cases same
            exact ⟨found, handle, dirPath, number, sent, size, rest,
              ⟨called, stored⟩, handled, sentReply, fills⟩
      · cases returned

/-- `filler` gets the names of the first 256 entries. -/
theorem snfsReaddir_fills (lists : ListsEntries link.kernel view)
    (returned : snfsReaddir link root path server = .ok ((0, names), after)) :
    ∃ found handle dirPath, Finds link root path server found handle dirPath ∧
      ∀ entries, view.entries server.fs dirPath = some entries →
        (∀ entry ∈ entries,
          entry.name.bytes.length ≤ snfsMaxFilenameLength) →
        names = (entries.take 256).map Dirent.name := by
  obtain ⟨found, handle, dirPath, number, sent, size, rest, finds, handled,
    sentReply, fills⟩ := snfsReaddir_eq_zero returned
  refine ⟨found, handle, dirPath, finds, ?_⟩
  intro entries directory short
  have standing : view.entries found.fs dirPath = some entries := by
    rw [(lookup_quiet finds.called).served_eq lists.undisturbed]
    exact directory
  obtain ⟨shows, counted, _⟩ := handleReaddir_shows lists rfl rfl finds.stored
    standing handled sentReply
  rw [counted, length_of_shows shows, fillNames_of_shows
    (fun entry member => short entry (List.mem_of_mem_take member)) shows] at fills
  exact (Except.ok.inj fills).symm

/-- Whenever `snfs_readdir` returns 0, `filler` has been called exactly once for
each entry of the directory, with its name, and for nothing else, if and only if
the directory has at most 256 entries. -/
theorem filledOnce_iff (lists : ListsEntries link.kernel view)
    (returned : snfsReaddir link root path server = .ok ((0, names), after)) :
    ∃ found handle dirPath, Finds link root path server found handle dirPath ∧
      (Walkable link root path server → dirPath = joinedPath (tokens path)) ∧
      ∀ entries, view.entries server.fs dirPath = some entries →
        (∀ entry ∈ entries,
          entry.name.bytes.length ≤ snfsMaxFilenameLength) →
        (names.Perm (entries.map Dirent.name) ↔ entries.length ≤ 256) := by
  obtain ⟨found, handle, dirPath, finds, fills⟩ :=
    snfsReaddir_fills lists returned
  refine ⟨found, handle, dirPath, finds, finds.eq_joinedPath, ?_⟩
  intro entries directory short
  rw [fills entries directory short]
  constructor
  · intro once
    have lengths := once.length_eq
    rw [List.length_map, List.length_map, List.length_take] at lengths
    omega
  · intro few
    rw [List.take_of_length_le few]

end Returned

/-! ## One directory -/

/-- The root directory alone, and what its stream has still to give. -/
structure Shelf where
  entries : List Dirent
  stream : List Dirent

namespace Shelf

def stat : Stat := ⟨0x41ED, 2, 0, 0, 4096, 0, 1, 2, 0, 0, 0⟩

def kernel : Kernel Shelf
  | .stat path, shelf =>
    (if path = rootPath then .ok stat else .error .enoent, shelf)
  | .opendir path, shelf =>
    if path = rootPath then (.ok 0, { shelf with stream := shelf.entries })
    else (.error .enoent, shelf)
  | .readdir _, shelf =>
    (.ok shelf.stream.head?, { shelf with stream := shelf.stream.tail })
  | _, shelf => (.error (.other 38), shelf)

def view : DirView Shelf where
  entries shelf path := if path = rootPath then some shelf.entries else none
  remaining shelf _ := some shelf.stream

theorem entries_kept (call : Call) (shelf : Shelf) :
    view.entries (kernel call shelf).2 = view.entries shelf := by
  cases call with
  | opendir path =>
      rw [kernel]
      split
      · rfl
      · rfl
  | _ => rfl

theorem listsEntries : ListsEntries kernel view where
  undisturbed := ⟨fun call shelf _ => entries_kept call shelf,
    fun call shelf _ _ => entries_kept call shelf⟩
  opened := by
    intro path shelf entries dir after directory opens
    rw [view] at directory
    simp only [Option.ite_none_right_eq_some, Option.some.injEq] at directory
    obtain ⟨isRoot, rfl⟩ := directory
    rw [kernel, if_pos isRoot] at opens
    cases opens
    rfl
  next := by
    intro dir shelf entry rest found after remaining called
    have left : shelf.stream = entry :: rest := Option.some.inj remaining
    rw [kernel, left] at called
    cases called
    exact ⟨rfl, rfl⟩
  finished := by
    intro dir shelf found after remaining called
    have left : shelf.stream = [] := Option.some.inj remaining
    rw [kernel, left] at called
    cases called
    rfl

def link : Link Shelf :=
  ⟨kernel, fun _ => ⟨0, Fattr.zero, fun _ _ => 0, 0x800000⟩, fun _ _ => 0⟩

/-- The root directory has handle 7. -/
def server (entries : List Dirent) : Server Shelf :=
  ⟨⟨entries, []⟩, paired emptyDb rootPath 7, [], [], []⟩

theorem readEntries_ok (env : Env Shelf) (sameKernel : env.kernel = kernel)
    (dir : Nat) {arraySize room index : Nat}
    (holds : sizeofSnfsentry * (index + room) ≤ arraySize) (server : Server Shelf) :
    ∃ sent last, readEntries env dir arraySize room index server =
      .ok (.ok sent, last) := by
  have called : (syscall env (.readdir dir) server).1 =
      .ok server.fs.stream.head? := by
    rw [syscall_fst, sameKernel]
    rfl
  induction room generalizing index server with
  | zero =>
      rw [readEntries]
      split
      · rename_i failed
        rw [failed] at called
        cases called
      · exact ⟨_, _, rfl⟩
      · exact ⟨_, _, rfl⟩
  | succ room inductionHypothesis =>
      rw [readEntries]
      split
      · rename_i failed
        rw [failed] at called
        cases called
      · exact ⟨_, _, rfl⟩
      · rename_i entry middle _
        have size : sizeofSnfsentry = 264 := rfl
        rw [size] at holds inductionHypothesis
        have here : sizeofSnfsentry * (index + 1) ≤ arraySize := by
          rw [size]
          omega
        obtain ⟨sent, last, rest⟩ := @inductionHypothesis (index + 1) (by omega)
          middle (by
            rw [syscall_fst, sameKernel]
            rfl)
        simp only [withinRoom_of_le here, ok_bind, rest]
        exact ⟨_, _, rfl⟩

theorem server_known (entries : List Dirent) :
    getFile (server entries).db 7 = some rootPath.key := rfl

theorem server_stored (entries : List Dirent) :
    storedPath (server entries).db 7 = some rootPath :=
  storedPath_eq_some (server_known entries) (by rw [asString, stringAt_key])

/-- Its directory is open. -/
def opened (entries : List Dirent) : Server Shelf :=
  ⟨⟨entries, entries⟩, paired emptyDb rootPath 7, [], [], [.directory 0]⟩

theorem entries_root (entries : List Dirent) :
    view.entries (server entries).fs rootPath = some entries := by
  simp only [view, if_true]
  rfl

theorem handleReaddir_ok (entries : List Dirent) :
    ∃ after sent size,
      handleReaddir (link.env 0) ⟨.ok 7, .ok 256⟩ (server entries) = .ok after ∧
      after.sent = (.readdir (UInt64.ofNat sent.length) sent, size) ::
        (server entries).sent := by
  have stats : syscall (link.env 0) (.stat rootPath) (server entries) =
      (.ok stat, server entries) := rfl
  have opens : syscall (link.env 0) (.opendir rootPath) (server entries) =
      (.ok 0, opened entries) := rfl
  have directory : sIsdir stat.mode = true := rfl
  have room : (entriesArraySize 256).toNat ≤ (link.env 0).leftover.stack := by decide
  obtain ⟨sent, last, read⟩ := @readEntries_ok (link.env 0) rfl 0
    (entriesArraySize 256).toNat (256 : UInt64).toNat 0 (by decide) (opened entries)
  have kept := (readEntries_looked (Looked.refl _ _) read).sent
  refine ⟨sendReply (.readdir (UInt64.ofNat sent.length) sent)
    (snfsRepSize sizeofReaddirRep + sizeofSnfsentry * sent.length) last, sent, _,
    ?_, congrArg (List.cons _) kept⟩
  simp only [handleReaddir, ok_bind, server_known, asString, stringAt_key, stats,
    directory, Bool.not_true, Bool.false_eq_true, if_false, opens,
    withinRoom_of_le room, read]
  rfl

theorem snfsReaddir_ok {entries : List Dirent}
    (short : ∀ entry ∈ entries,
      entry.name.bytes.length ≤ snfsMaxFilenameLength) :
    ∃ names after, snfsReaddir link 7 rootPath (server entries) =
      .ok ((0, names), after) := by
  obtain ⟨after, sent, size, handled, sentReply⟩ := handleReaddir_ok entries
  have received := Request.receivedIn_sent noGap [] (.readdir 7 256)
  rw [Request.ReceivedIn] at received
  have served : serve (link.env 0) (Request.sent noGap [] (.readdir 7 256))
      (server entries) = .ok after := by
    rw [serve_of_messageType (Request.messageType_sent noGap [] _), Request.type,
      dispatch, received, handled]
  have replied := sendRequest_of_reply .readdir served sentReply rfl (by simp)
  obtain ⟨shows, _, _⟩ := handleReaddir_shows listsEntries rfl rfl
    (server_stored entries) (entries_root entries) handled sentReply
  have fills := fillNames_of_shows
    (fun entry member => short entry (List.mem_of_mem_take member)) shows
  have called : lookup link 7 rootPath 0 (server entries) =
      .ok ((true, 7), server entries) := rfl
  have noTokens : tokens rootPath = [] := rfl
  refine ⟨(entries.take 256).map Dirent.name, after, ?_⟩
  rw [snfsReaddir, called]
  simp only [ok_bind, Bool.not_true, Bool.false_eq_true, if_false, noTokens,
    List.length_nil, replied, length_of_shows shows]
  rw [fills]
  rfl

theorem eq_rootPath_of_finds {entries : List Dirent} {found : Server Shelf}
    {handle : Fhandle} {dirPath : CString}
    (finds : Finds link 7 rootPath (server entries) found handle dirPath) :
    dirPath = rootPath := by
  have called : lookup link 7 rootPath 0 (server entries) =
      .ok ((true, 7), server entries) := rfl
  cases called.symm.trans finds.called
  exact Option.some.inj (finds.stored.symm.trans (server_stored entries))

end Shelf

/-- The names `aa`, `ab`, `ac` and so on. -/
def nameOf (number : Nat) : CString where
  bytes := [UInt8.ofNat (97 + number / 26 % 26), UInt8.ofNat (97 + number % 26)]
  noNul := by
    intro zero
    rw [List.mem_pair] at zero
    rcases zero with zero | zero
    · have value := congrArg UInt8.toNat zero
      rw [UInt8.toNat_ofNat', UInt8.toNat_zero] at value
      omega
    · have value := congrArg UInt8.toNat zero
      rw [UInt8.toNat_ofNat', UInt8.toNat_zero] at value
      omega

def numbered (count : Nat) : List Dirent :=
  (List.range count).map fun number => ⟨UInt64.ofNat (number + 3), nameOf number⟩

theorem numbered_length (count : Nat) : (numbered count).length = count := by
  rw [numbered, List.length_map, List.length_range]

theorem numbered_short (count : Nat) : ∀ entry ∈ numbered count,
    entry.name.bytes.length ≤ snfsMaxFilenameLength := by
  intro entry member
  obtain ⟨number, _, rfl⟩ := List.mem_map.mp member
  exact (by decide : 2 ≤ snfsMaxFilenameLength)

theorem nameOf_inj {first second : Nat} (firstSmall : first < 676)
    (secondSmall : second < 676) (same : nameOf first = nameOf second) :
    first = second := by
  have bytes := congrArg CString.bytes same
  simp only [nameOf, List.cons.injEq] at bytes
  obtain ⟨high, low, _⟩ := bytes
  have highs := congrArg UInt8.toNat high
  have lows := congrArg UInt8.toNat low
  rw [UInt8.toNat_ofNat', UInt8.toNat_ofNat'] at highs lows
  omega

theorem numbered_nodup {count : Nat} (few : count ≤ 676) :
    ((numbered count).map Dirent.name).Nodup := by
  rw [numbered, List.map_map]
  apply List.Nodup.map_on _ List.nodup_range
  intro first inFirst second inSecond same
  rw [List.mem_range] at inFirst inSecond
  exact nameOf_inj (by omega) (by omega) same

/-- Two entries are listed. -/
theorem filledOnce_iff_two : ∃ names after,
    snfsReaddir Shelf.link 7 rootPath (Shelf.server (numbered 2)) =
      .ok ((0, names), after) ∧
    names.Perm ((numbered 2).map Dirent.name) := by
  obtain ⟨names, after, returned⟩ := Shelf.snfsReaddir_ok (numbered_short 2)
  obtain ⟨_, _, dirPath, finds, _, once⟩ :=
    filledOnce_iff Shelf.listsEntries returned
  cases Shelf.eq_rootPath_of_finds finds
  have few : (numbered 2).length ≤ 256 := by
    rw [numbered_length]
    omega
  exact ⟨names, after, returned,
    (once (numbered 2) (Shelf.entries_root _) (numbered_short 2)).mpr few⟩

/-- Of 257 entries one is lost, and `snfs_readdir` returns 0. -/
theorem lastEntry_lost : ∃ names after,
    snfsReaddir Shelf.link 7 rootPath (Shelf.server (numbered 257)) =
      .ok ((0, names), after) ∧
    Shelf.view.entries (Shelf.server (numbered 257)).fs rootPath =
      some (numbered 257) ∧
    ((numbered 257).map Dirent.name).Nodup ∧
    ¬ names.Perm ((numbered 257).map Dirent.name) := by
  obtain ⟨names, after, returned⟩ := Shelf.snfsReaddir_ok (numbered_short 257)
  have listed := Shelf.entries_root (numbered 257)
  refine ⟨names, after, returned, listed, numbered_nodup (by omega), ?_⟩
  intro once
  obtain ⟨_, _, dirPath, finds, fills⟩ :=
    snfsReaddir_fills Shelf.listsEntries returned
  cases Shelf.eq_rootPath_of_finds finds
  have lengths := once.length_eq
  rw [fills (numbered 257) listed (numbered_short 257), List.length_map,
    List.length_take, List.length_map, numbered_length] at lengths
  omega

end ChlorosSnfs.Snfs.RemoteListing
