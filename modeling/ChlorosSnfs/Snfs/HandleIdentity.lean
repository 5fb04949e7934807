import ChlorosSnfs.Snfs.Client
import ChlorosSnfs.Snfs.FreshDraws
import ChlorosSnfs.Snfs.TreeKernel

/-!
# What a handle denotes

A handle stands for a path, and a path for whatever inode it leads to.  A handle
that a client holds goes over to another file when a name comes back while the
path is still stored: when a file is renamed over another one, and when a name
is made again below a directory that has been renamed.
-/

set_option autoImplicit false

namespace ChlorosSnfs.Snfs.HandleIdentity

open ChlorosSnfs.Library
open ChlorosSnfs.Library.FileTree
open ChlorosSnfs.Library.Runs
open ChlorosSnfs.Snfs.Fhandledb
open ChlorosSnfs.Snfs.Messages
open ChlorosSnfs.Snfs.Syscalls
open ChlorosSnfs.Snfs.Handlers
open ChlorosSnfs.Snfs.ServeLoop
open ChlorosSnfs.Snfs.HandlerEffects
open ChlorosSnfs.Snfs.FreshDraws
open ChlorosSnfs.Snfs.TreeKernel

variable {Fs : Type}

/-- The inode a path leads to. -/
def inodeAt (files : Files) (path : CString) : Option Nat :=
  match resolvePath files path with
  | .ok place => (files.node place).map Node.ino
  | .error _ => none

/-- The inode of the path `get_file` finds. -/
def denotes (files : Fs → Files) (server : Server Fs) (handle : Fhandle) :
    Option Nat :=
  (storedPath server.db handle).bind (inodeAt (files server.fs))

/-- A server, and the handles it has given out with the inodes they denoted at
the time. -/
structure Holding (Fs : Type) where
  server : Server Fs
  given : List (Fhandle × Nat)

/-- What the last reply gives out. -/
def lastGiven (files : Fs → Files) (server : Server Fs) :
    Option (Fhandle × Nat) :=
  server.sent.head?.bind fun sent =>
    sent.1.givenHandle.bind fun handle =>
      (denotes files server handle).map fun ino => (handle, ino)

/-- One request, with what it finds in memory. -/
def holdStep (kernel : Kernel Fs) (files : Fs → Files) (holding : Holding Fs)
    (request : Bytes × Leftover) : Option (Holding Fs) :=
  match serve ⟨kernel, request.2⟩ request.1 holding.server with
  | .ok next => some ⟨next, (lastGiven files next).toList ++ holding.given⟩
  | .error _ => none

/-- Every handle given out denotes nothing or what it denoted then. -/
def Faithful (files : Fs → Files) (holding : Holding Fs) : Prop :=
  ∀ handle ino, (handle, ino) ∈ holding.given →
    ∀ now, denotes files holding.server handle = some now → now = ino

/-! ## The requests that go wrong -/

/-- The call that makes or moves a name for a request. -/
inductive Asks (server : Server Fs) (message : Bytes) : Call → Prop
  | create (path : CString) (mode : UInt32)
      (named : messageType message = .ok .create)
      (pathRead : (createArgs message).filename = .ok path)
      (modeRead : (createArgs message).mode = .ok mode) :
      Asks server message (.creat path mode)
  | mkdir (path : CString) (mode : UInt32)
      (named : messageType message = .ok .mkdir)
      (pathRead : (mkdirArgs message).dirname = .ok path)
      (modeRead : (mkdirArgs message).mode = .ok mode) :
      Asks server message (.mkdir path mode)
  | rename (handle : Fhandle) (oldPath newPath : CString)
      (named : messageType message = .ok .rename)
      (fhRead : (renameArgs message).fh = .ok handle)
      (stored : storedPath server.db handle = some oldPath)
      (pathRead : (renameArgs message).filename = .ok newPath) :
      Asks server message (.rename oldPath newPath)

/-- A handle given out for the inode is stored with a path to the place. -/
def Remembers (holding : Holding Fs) (place : List Bytes) (ino : Nat) : Prop :=
  ∃ handle name, (handle, ino) ∈ holding.given ∧
    storedPath holding.server.db handle = some name ∧ locationOf name = place

/-- The call brings an inode to a place that a handle remembers for another:
a new one to a place that is free, or one at or below a renamed name. -/
def Redirects (files : Files) (holding : Holding Fs) : Call → Prop
  | .creat path _ => files.node (locationOf path) = none ∧
      ∃ ino, Remembers holding (locationOf path) ino
  | .mkdir path _ => files.node (locationOf path) = none ∧
      ∃ ino, Remembers holding (locationOf path) ino
  | .rename oldPath newPath => ∃ rest found ino,
      files.node (locationOf oldPath ++ rest) = some found ∧
        Remembers holding (locationOf newPath ++ rest) ino ∧ found.ino ≠ ino
  | _ => False

/-- What the request asks for redirects no handle, if the tree allows it. -/
def KeepsHandles (files : Fs → Files) (holding : Holding Fs)
    (request : Bytes × Leftover) : Prop :=
  ∀ call, Asks holding.server request.1 call →
    filesAfter (files holding.server.fs) call ≠ none →
      ¬ Redirects (files holding.server.fs) holding call

/-! ## What is kept -/

/-- Every handle given out has been drawn, and where its path leads by name
there is nothing or the inode it was given for. -/
structure Held (files : Fs → Files) (holding : Holding Fs)
    (pairs : CString ≃. Fhandle) : Prop where
  fresh : Fresh holding.server pairs
  drawn : ∀ handle ino, (handle, ino) ∈ holding.given →
    SpellsNoName handle ∧ handle ∉ holding.server.draws
  inode : ∀ handle ino name, (handle, ino) ∈ holding.given →
    pairs name = some handle → ∀ found,
      (files holding.server.fs).node (locationOf name) = some found →
        found.ino = ino

theorem pair_of_storedPath {server : Server Fs} {pairs : CString ≃. Fhandle}
    (fresh : Fresh server pairs) {handle : Fhandle}
    (spellsNone : SpellsNoName handle) {name : CString}
    (stored : storedPath server.db handle = some name) :
    pairs name = some handle := by
  rw [storedPath, fresh.getFile_eq spellsNone] at stored
  cases known : pairs.symm handle with
  | none =>
      rw [known] at stored
      cases stored
  | some other =>
      rw [known, Option.map_some, Option.bind_some, stringAt_key] at stored
      cases stored
      exact pairs.eq_some_iff.mp known

theorem inodeAt_eq_some {files : Files} {path : CString} {ino : Nat}
    (leads : inodeAt files path = some ino) :
    ∃ found, files.node (locationOf path) = some found ∧ found.ino = ino := by
  rw [inodeAt] at leads
  split at leads
  · rename_i place resolved
    rw [resolvePath] at resolved
    split at resolved
    · cases resolved
    · rw [DirTree.resolve_eq_normal resolved] at leads
      obtain ⟨found, here, same⟩ := Option.map_eq_some_iff.mp leads
      exact ⟨found, here, same⟩
  · cases leads

theorem Held.faithful {files : Fs → Files} {holding : Holding Fs}
    {pairs : CString ≃. Fhandle} (held : Held files holding pairs) :
    Faithful files holding := by
  intro handle ino given now denoted
  obtain ⟨name, stored, leads⟩ := Option.bind_eq_some_iff.mp denoted
  have pair := pair_of_storedPath held.fresh (held.drawn handle ino given).1 stored
  obtain ⟨found, here, same⟩ := inodeAt_eq_some leads
  rw [← same]
  exact held.inode handle ino name given pair found here

theorem lastGiven_eq_some {files : Fs → Files} {server : Server Fs}
    {reply : Reply} {size : Nat} {sent : List (Reply × Nat)}
    (replied : server.sent = (reply, size) :: sent) {handle : Fhandle} {ino : Nat}
    (given : lastGiven files server = some (handle, ino)) :
    reply.givenHandle = some handle ∧ denotes files server handle = some ino := by
  rw [lastGiven, replied, List.head?_cons, Option.bind_some] at given
  obtain ⟨other, gives, given⟩ := Option.bind_eq_some_iff.mp given
  obtain ⟨found, denoted, same⟩ := Option.map_eq_some_iff.mp given
  cases same
  exact ⟨gives, denoted⟩

/-- A reply that gives a drawn handle keeps what is kept, whatever it denotes. -/
theorem Held.next {files : Fs → Files} {before next : Server Fs}
    {given : List (Fhandle × Nat)} {pairs more : CString ≃. Fhandle}
    (held : Held files ⟨before, given⟩ pairs) (fresh : Fresh next more)
    (drawsLeft : ∀ draw ∈ next.draws, draw ∈ before.draws)
    (inode : ∀ handle ino name, (handle, ino) ∈ given →
      more name = some handle → ∀ found,
        (files next.fs).node (locationOf name) = some found → found.ino = ino)
    (gives : ∀ handle ino, lastGiven files next = some (handle, ino) →
      SpellsNoName handle ∧ denotes files next handle = some ino) :
    Held files ⟨next, (lastGiven files next).toList ++ given⟩ more := by
  have newPair : ∀ handle ino, lastGiven files next = some (handle, ino) →
      ∃ name, more name = some handle ∧
        inodeAt (files next.fs) name = some ino := by
    intro handle ino last
    obtain ⟨spellsNone, denoted⟩ := gives handle ino last
    obtain ⟨name, stored, leads⟩ := Option.bind_eq_some_iff.mp denoted
    exact ⟨name, pair_of_storedPath fresh spellsNone stored, leads⟩
  refine ⟨fresh, ?_, ?_⟩
  · intro handle ino member
    rcases List.mem_append.mp member with new | old
    · have last := Option.mem_toList.mp new
      obtain ⟨name, pair, _⟩ := newPair handle ino last
      refine ⟨(gives handle ino last).1, ?_⟩
      intro drawn
      have unused := fresh.unused handle drawn
      rw [more.eq_some_iff.mpr pair] at unused
      cases unused
    · obtain ⟨spellsNone, notLeft⟩ := held.drawn handle ino old
      exact ⟨spellsNone, fun drawn => notLeft (drawsLeft handle drawn)⟩
  · intro handle ino name member pair found here
    rcases List.mem_append.mp member with new | old
    · obtain ⟨other, otherPair, leads⟩ :=
        newPair handle ino (Option.mem_toList.mp new)
      have same : name = other := more.inj pair otherPair
      subst same
      obtain ⟨inode, alsoHere, isIno⟩ := inodeAt_eq_some leads
      cases here.symm.trans alsoHere
      exact isIno
    · exact inode handle ino name old pair found here

/-- A name that is found or inserted gets no handle that was given out, unless it
had it already. -/
theorem Held.gains {files : Fs → Files} {before : Server Fs}
    {given : List (Fhandle × Nat)} {pairs : CString ≃. Fhandle}
    (held : Held files ⟨before, given⟩ pairs) (next : Server Fs)
    {beyond : Fhandle} {filename : CString} {handle : Fhandle}
    (called : nameFindOrInsert beyond before.db before.draws filename =
      some (handle, next.db, next.draws)) :
    ∃ more, Fresh next more ∧ more filename = some handle ∧
      (∀ draw ∈ next.draws, draw ∈ before.draws) ∧
      ∀ old ino name, (old, ino) ∈ given → more name = some old →
        pairs name = some old := by
  obtain ⟨more, fresh, gains, supply⟩ := held.fresh.called next called
  refine ⟨more, fresh, gains.pair, ?_, ?_⟩
  · intro draw left
    rcases supply with ⟨_, same⟩ | ⟨_, drawn⟩
    · rw [same] at left
      exact left
    · rw [drawn]
      exact List.mem_cons_of_mem _ left
  · intro old ino name member pair
    by_cases isNew : name = filename
    · subst isNew
      rcases supply with ⟨known, _⟩ | ⟨_, drawn⟩
      · rw [gains.pair] at pair
        rw [known, pair]
      · have notLeft := (held.drawn old ino member).2
        rw [gains.pair] at pair
        cases pair
        rw [drawn] at notLeft
        exact absurd List.mem_cons_self notLeft
    · rw [gains.other name isNew] at pair
      exact pair

theorem pair_of_erase {pairs : CString ≃. Fhandle} {erased name : CString}
    {handle : Fhandle}
    (pair : TwoWayMap.erase pairs erased name = some handle) :
    pairs name = some handle := by
  rw [TwoWayMap.erase_apply] at pair
  split at pair
  · cases pair
  · exact pair

theorem inode_of_same {files : Fs → Files} {before next : Server Fs}
    {given : List (Fhandle × Nat)} {pairs : CString ≃. Fhandle}
    (held : Held files ⟨before, given⟩ pairs)
    (same : files next.fs = files before.fs) {handle : Fhandle} {ino : Nat}
    {name : CString} (member : (handle, ino) ∈ given)
    (pair : pairs name = some handle) {found : Node}
    (here : (files next.fs).node (locationOf name) = some found) :
    found.ino = ino := by
  rw [same] at here
  exact held.inode handle ino name member pair found here

/-- A new inode is at a place no handle remembers. -/
theorem inode_of_added {files : Fs → Files} {before next : Server Fs}
    {given : List (Fhandle × Nat)} {pairs : CString ≃. Fhandle}
    (held : Held files ⟨before, given⟩ pairs) {place : List Bytes} {isDir : Bool}
    (added : DirTree.Added (files before.fs) (files next.fs) place isDir)
    (apart : ∀ ino, ¬ Remembers ⟨before, given⟩ place ino) {handle : Fhandle}
    {ino : Nat} {name : CString} (member : (handle, ino) ∈ given)
    (pair : pairs name = some handle) {found : Node}
    (here : (files next.fs).node (locationOf name) = some found) :
    found.ino = ino := by
  have elsewhere : locationOf name ≠ place := by
    intro same
    exact apart ino ⟨handle, name, member,
      held.fresh.storedPath_of_pair pair, same⟩
  rw [added.node, if_neg elsewhere] at here
  exact held.inode handle ino name member pair found here

theorem inode_of_removed {files : Fs → Files} {before next : Server Fs}
    {given : List (Fhandle × Nat)} {pairs : CString ≃. Fhandle}
    (held : Held files ⟨before, given⟩ pairs) {place : List Bytes}
    (removed : DirTree.Removed (files before.fs) (files next.fs) place)
    {handle : Fhandle} {ino : Nat} {name : CString}
    (member : (handle, ino) ∈ given) (pair : pairs name = some handle)
    {found : Node}
    (here : (files next.fs).node (locationOf name) = some found) :
    found.ino = ino := by
  rw [removed.node] at here
  split at here
  · cases here
  · exact held.inode handle ino name member pair found here

/-- What has moved is where handles remember it or nothing. -/
theorem inode_of_moved {files : Fs → Files} {before next : Server Fs}
    {given : List (Fhandle × Nat)} {pairs : CString ≃. Fhandle}
    (held : Held files ⟨before, given⟩ pairs) {source target : List Bytes}
    (moved : DirTree.MovedTo (files before.fs) (files next.fs) source target)
    (apart : ∀ rest found ino,
      (files before.fs).node (source ++ rest) = some found →
        Remembers ⟨before, given⟩ (target ++ rest) ino → found.ino = ino)
    {handle : Fhandle} {ino : Nat} {name : CString}
    (member : (handle, ino) ∈ given) (pair : pairs name = some handle)
    {found : Node}
    (here : (files next.fs).node (locationOf name) = some found) :
    found.ino = ino := by
  by_cases inTarget : target <+: locationOf name
  · obtain ⟨rest, isBelow⟩ := inTarget
    rw [← isBelow, moved.node, DirTree.movedNode_below] at here
    exact apart rest found ino here ⟨handle, name, member,
      held.fresh.storedPath_of_pair pair, isBelow.symm⟩
  · rw [moved.node, DirTree.movedNode, if_neg inTarget] at here
    split at here
    · cases here
    · exact held.inode handle ino name member pair found here

/-! ## One request -/

theorem Held.unchanged {files : Fs → Files} {before next : Server Fs}
    {given : List (Fhandle × Nat)} {pairs : CString ≃. Fhandle}
    (held : Held files ⟨before, given⟩ pairs)
    (same : files next.fs = files before.fs) (db : next.db = before.db)
    (draws : next.draws = before.draws) {reply : Reply} {size : Nat}
    (sent : next.sent = (reply, size) :: before.sent)
    (noHandle : reply.givenHandle = none) :
    Held files ⟨next, (lastGiven files next).toList ++ given⟩ pairs := by
  refine held.next (held.fresh.of_same db draws) ?_ ?_ ?_
  · rw [draws]
    exact fun draw left => left
  · intro handle ino name member pair found here
    exact inode_of_same held same member pair here
  · intro handle ino last
    have gives := (lastGiven_eq_some sent last).1
    rw [noHandle] at gives
    cases gives

/-- A request that names a file keeps what is kept as soon as its call does. -/
theorem Held.named {files : Fs → Files} {before next : Server Fs}
    {given : List (Fhandle × Nat)} {pairs : CString ≃. Fhandle}
    (held : Held files ⟨before, given⟩ pairs) {beyond : Fhandle}
    {filename : CString} {handle : Fhandle}
    (inserted : nameFindOrInsert beyond before.db before.draws filename =
      some (handle, next.db, next.draws)) {reply : Reply} {size : Nat}
    (sent : next.sent = (reply, size) :: before.sent)
    (gives : ∀ other, reply.givenHandle = some other → other = handle)
    (inode : ∀ old ino name found, (old, ino) ∈ given → pairs name = some old →
      (files next.fs).node (locationOf name) = some found → found.ino = ino) :
    ∃ more, Held files ⟨next, (lastGiven files next).toList ++ given⟩ more := by
  obtain ⟨more, fresh, pair, drawsLeft, wasPair⟩ := held.gains next inserted
  refine ⟨more, held.next fresh drawsLeft ?_ ?_⟩
  · intro old ino name member oldPair found here
    exact inode old ino name found member (wasPair _ _ _ member oldPair) here
  · intro other ino last
    obtain ⟨givesOther, denoted⟩ := lastGiven_eq_some sent last
    rw [gives other givesOther] at denoted ⊢
    exact ⟨fresh.storedApart _ _ pair, denoted⟩

theorem held_of_ending {env : Env Fs} {files : Fs → Files}
    (onTree : OnTree env.kernel files) {message : Bytes} {before next : Server Fs}
    {type : MsgType} (named : messageType message = .ok type)
    {given : List (Fhandle × Nat)} {pairs : CString ≃. Fhandle}
    (held : Held files ⟨before, given⟩ pairs)
    (keeps : ∀ call, Asks before message call →
      filesAfter (files before.fs) call ≠ none →
        ¬ Redirects (files before.fs) ⟨before, given⟩ call)
    (ending : Ending env message before next type) :
    ∃ more, Held files ⟨next, (lastGiven files next).toList ++ given⟩ more := by
  cases ending with
  | refused refused =>
      obtain ⟨error, sent⟩ := refused.reply
      have same := refused.quiet.served_eq onTree.undisturbed
      exact ⟨pairs, held.unchanged same refused.db refused.draws sent rfl⟩
  | answered leaves answered =>
      obtain ⟨reply, size, sent, _, noHandle⟩ := answered.reply
      have same := onTree.files_eq answered.inPlace
      exact ⟨pairs, held.unchanged same answered.db answered.draws sent noHandle⟩
  | mounted root rootNamed fs sent =>
      apply held.named rootNamed.inserted sent
      · intro other gives
        cases gives
      · intro old ino name found member pair here
        rw [fs] at here
        exact held.inode old ino name member pair found here
  | lookedUp dirPath filename handle found =>
      obtain ⟨st1, fs1, st2, first, _, second, sent⟩ := found.found
      have same : files next.fs = files before.fs := by
        have afterFirst := onTree.undisturbed.readOnly (.stat dirPath) before.fs rfl
        have afterSecond := onTree.undisturbed.readOnly
          (.stat (joinPath dirPath filename)) fs1 rfl
        rw [first] at afterFirst
        rw [second] at afterSecond
        exact afterSecond.trans afterFirst
      apply held.named found.named.inserted sent
      · intro other gives
        exact (Option.some.inj gives).symm
      · intro old ino name found member pair here
        exact inode_of_same held same member pair here
  | created path handle made sent =>
      obtain ⟨mode, modeRead, fd, called⟩ := made.made
      have succeeded := onTree.of_ok called
      apply held.named made.named.inserted sent
      · intro other gives
        exact (Option.some.inj gives).symm
      · intro old ino name found member pair here
        rcases creat_of_filesAfter succeeded with ⟨same, _⟩ | added
        · exact inode_of_same held same member pair here
        · apply inode_of_added held added _ member pair here
          intro other remembered
          exact keeps _ (.create path mode named made.filenameRead modeRead)
            (by rw [succeeded]; exact Option.some_ne_none _)
            ⟨added.free, other, remembered⟩
  | madeDirectory path handle made sent =>
      obtain ⟨mode, modeRead, _, called⟩ := made.made
      have succeeded := onTree.of_ok called
      have added := mkdir_of_filesAfter succeeded
      apply held.named made.named.inserted sent
      · intro other gives
        exact (Option.some.inj gives).symm
      · intro old ino name found member pair here
        apply inode_of_added held added _ member pair here
        intro other remembered
        exact keeps _ (.mkdir path mode named made.filenameRead modeRead)
          (by rw [succeeded]; exact Option.some_ne_none _)
          ⟨added.free, other, remembered⟩
  | unlinked handle path removed gone =>
      obtain ⟨st, fs1, isDir, stat, _, removal⟩ := gone.unlinked
      have looked := onTree.undisturbed.readOnly (.stat path) before.fs rfl
      rw [stat] at looked
      have treeRemoved : DirTree.Removed (files before.fs) (files next.fs)
          (locationOf path) := by
        rw [← looked]
        split at removal
        · exact removed_of_filesAfter (Or.inl rfl) (onTree.of_ok removal.2)
        · exact removed_of_filesAfter (Or.inr rfl) (onTree.of_ok removal)
      refine ⟨_, held.next (held.fresh.removed gone.db gone.draws).1 ?_ ?_ ?_⟩
      · rw [gone.draws]
        exact fun draw left => left
      · intro old ino name member pair found here
        exact inode_of_removed held treeRemoved member (pair_of_erase pair) here
      · intro other ino last
        have sent := gone.sent
        cases removed with
        | false => cases (lastGiven_eq_some sent last).1
        | true => cases (lastGiven_eq_some sent last).1
  | moved handle oldPath newPath newHandle removed moved =>
      obtain ⟨middle, inserted, removal⟩ := moved.db
      obtain ⟨more, freshMiddle, pair, drawsLeft, wasPair⟩ :=
        held.gains { next with db := middle } inserted
      have succeeded := onTree.of_ok moved.moved
      refine ⟨_, held.next (freshMiddle.removed removal rfl).1 drawsLeft ?_ ?_⟩
      · intro old ino name member oldPair found here
        have wasOld := wasPair _ _ _ member (pair_of_erase oldPair)
        rcases (rename_of_filesAfter succeeded).2.2 with ⟨_, same⟩ | treeMoved
        · exact inode_of_same held same member wasOld here
        · apply inode_of_moved held treeMoved _ member wasOld here
          intro rest inode other isThere remembered
          by_contra different
          exact keeps _
            (.rename handle oldPath newPath named moved.fhRead moved.stored
              moved.filenameRead)
            (by rw [succeeded]; exact Option.some_ne_none _)
            ⟨rest, inode, other, isThere, remembered, different⟩
      · intro other ino last
        have sent := moved.sent
        cases removed with
        | false => cases (lastGiven_eq_some sent last).1
        | true =>
            obtain ⟨gives, denoted⟩ := lastGiven_eq_some sent last
            cases gives
            exact ⟨freshMiddle.storedApart _ _ pair, denoted⟩

/-! ## Whole runs -/

/-- A server that has just been started and has given out nothing. -/
def holdingNone (fs : Fs) (draws : List Fhandle) : Holding Fs :=
  ⟨started fs draws, []⟩

theorem step_held {kernel : Kernel Fs} {files : Fs → Files}
    (onTree : OnTree kernel files) {holding next : Holding Fs}
    {request : Bytes × Leftover} (held : ∃ pairs, Held files holding pairs)
    (keeps : KeepsHandles files holding request)
    (stepped : holdStep kernel files holding request = some next) :
    ∃ more, Held files next more := by
  obtain ⟨server, given⟩ := holding
  obtain ⟨pairs, held⟩ := held
  rw [holdStep] at stepped
  split at stepped
  · rename_i handled
    cases stepped
    obtain ⟨type, named, ending⟩ := serve_ending handled
    exact held_of_ending onTree named held keeps ending
  · cases stepped

/-- In every run of requests none of which redirects a handle, every handle
given out denotes nothing or the inode it was given for. -/
theorem run_faithful {kernel : Kernel Fs} {files : Fs → Files}
    (onTree : OnTree kernel files) (fs : Fs) {draws : List Fhandle}
    (nodup : draws.Nodup) (apart : ∀ draw ∈ draws, SpellsNoName draw)
    {requests : List (Bytes × Leftover)} {final : Holding Fs}
    (keeps : EveryStep (holdStep kernel files) (KeepsHandles files)
      (holdingNone fs draws) requests)
    (run : runLabels (holdStep kernel files) (holdingNone fs draws) requests =
      some final) : Faithful files final := by
  have initially : ∃ pairs, Held files (holdingNone fs draws) pairs := by
    refine ⟨⊥, started_fresh fs nodup apart, ?_, ?_⟩
    · intro handle ino given
      cases given
    · intro handle ino name given
      cases given
  obtain ⟨pairs, held⟩ := invariant_of_guarded_run
    (fun _ _ _ before guard stepped => step_held onTree before guard stepped)
    initially keeps run
  exact held.faithful

/-! Two files are made, and one is renamed over the other. -/

theorem pathA_noNul : (0 : UInt8) ∉ [(47 : UInt8), 97] := by decide

theorem pathB_noNul : (0 : UInt8) ∉ [(47 : UInt8), 98] := by decide

def pathA : CString := ⟨[47, 97], pathA_noNul⟩

def pathB : CString := ⟨[47, 98], pathB_noNul⟩

def noLeftover : Leftover := ⟨0, Fattr.zero, fun _ _ => 0, 0x800000⟩

def createRequest (path : CString) : Bytes × Leftover :=
  (Client.createMessage path (fun _ => 0) 0, noLeftover)

def renameRequest (handle : Fhandle) (path : CString) : Bytes × Leftover :=
  (Client.renameMessage handle path (fun _ => 0), noLeftover)

/-- `/a` has been made with handle 7. -/
def onlyA : Holding Files :=
  ⟨⟨onlyFileA, paired emptyDb pathA 7, [9],
    [(.create 7, snfsRepSize sizeofCreateRep)], [.file 3]⟩, [(7, 1)]⟩

set_option maxRecDepth 4000 in
theorem createRequest_onlyA :
    holdStep treeKernel id (holdingNone DirTree.onlyRoot [7, 9])
      (createRequest pathA) = some onlyA := rfl

set_option maxRecDepth 4000 in
theorem createRequest_twoFiles :
    ∃ final, holdStep treeKernel id onlyA (createRequest pathB) = some final :=
  ⟨_, rfl⟩

theorem createRequest_pathB_read :
    (createArgs (createRequest pathB).1).filename = .ok pathB := by
  have read := (Client.name_and_mode_read .create pathB (fun _ => 0) 0).1
  rw [Client.sent_of_short (by decide)] at read
  exact read

set_option maxRecDepth 4000 in
/-- Nothing remembers the place of `/b`. -/
theorem onlyA_keepsHandles : KeepsHandles id onlyA (createRequest pathB) := by
  intro call asks _ redirects
  have type : messageType (createRequest pathB).1 = .ok .create := rfl
  cases asks with
  | create path mode named pathRead modeRead =>
      obtain ⟨_, ino, handle, name, given, stored, atPlace⟩ := redirects
      cases createRequest_pathB_read.symm.trans pathRead
      cases List.mem_singleton.mp given
      have name_eq : storedPath onlyA.server.db 7 = some pathA := rfl
      cases name_eq.symm.trans stored
      exact absurd atPlace (by decide)
  | mkdir path mode named pathRead modeRead => cases type.symm.trans named
  | rename handle oldPath newPath named fhRead stored pathRead =>
      cases type.symm.trans named

theorem run_faithful_two_files :
    ∃ final, runLabels (holdStep treeKernel id)
        (holdingNone DirTree.onlyRoot [7, 9])
        [createRequest pathA, createRequest pathB] = some final ∧
      Faithful id final := by
  have apart : ∀ draw ∈ [(7 : Fhandle), 9], SpellsNoName draw := by
    intro draw member
    apply spellsNoName_of_zero
    rcases List.mem_pair.mp member with rfl | rfl
    · decide
    · decide
  obtain ⟨final, second⟩ := createRequest_twoFiles
  have run : runLabels (holdStep treeKernel id) onlyA [createRequest pathB] =
      some final := (runLabels_cons_eq_some _ _ _ _ _).mpr ⟨final, second, rfl⟩
  have wholeRun : runLabels (holdStep treeKernel id)
      (holdingNone DirTree.onlyRoot [7, 9])
      [createRequest pathA, createRequest pathB] = some final :=
    (runLabels_cons_eq_some _ _ _ _ _).mpr ⟨onlyA, createRequest_onlyA, run⟩
  refine ⟨final, wholeRun, run_faithful treeKernel_onTree DirTree.onlyRoot
    (by decide) apart ?_ wholeRun⟩
  refine ⟨?_, ?_⟩
  · intro call asks _ redirects
    cases asks with
    | create path mode named pathRead modeRead =>
        obtain ⟨_, ino, handle, name, given, _⟩ := redirects
        cases given
    | mkdir path mode named pathRead modeRead =>
        obtain ⟨_, ino, handle, name, given, _⟩ := redirects
        cases given
    | rename handle oldPath newPath named fhRead stored pathRead => cases stored
  · intro next stepped
    cases createRequest_onlyA.symm.trans stepped
    exact ⟨onlyA_keepsHandles, fun _ _ => trivial⟩

set_option maxRecDepth 4000 in
/-- Handle 9 was given out for the inode 2 of `/b`, and now it denotes inode 1. -/
theorem renamed_over_not_faithful :
    ∃ final, runLabels (holdStep treeKernel id)
        (holdingNone DirTree.onlyRoot [7, 9])
        [createRequest pathA, createRequest pathB, renameRequest 7 pathB] =
          some final ∧
      ¬ Faithful id final := by
  refine ⟨_, rfl, ?_⟩
  intro faithful
  have now : (1 : Nat) = 2 := faithful 9 2 (by decide) 1 rfl
  cases now

end ChlorosSnfs.Snfs.HandleIdentity
