import ChlorosSnfs.Snfs.ClientCalls

/-!
# Two ways to send a path

LOOKUP sends a path piece by piece, while CREATE, MKDIR and RENAME send its
first 255 bytes.  The two name the same file as long as the whole path fits;
a longer path is cut off, and the call either fails or makes another file.
-/

set_option autoImplicit false

namespace ChlorosSnfs.Snfs.PathAgreement

open ChlorosSnfs.Library.FileTree
open ChlorosSnfs.Library.Paths
open ChlorosSnfs.Library.Runs
open ChlorosSnfs.Snfs.Fhandledb
open ChlorosSnfs.Snfs.Messages
open ChlorosSnfs.Snfs.Syscalls
open ChlorosSnfs.Snfs.Handlers
open ChlorosSnfs.Snfs.ServeLoop
open ChlorosSnfs.Snfs.HandlerEffects
open ChlorosSnfs.Snfs.Client
open ChlorosSnfs.Snfs.FreshDraws
open ChlorosSnfs.Snfs.TreeKernel
open ChlorosSnfs.Snfs.PathWalk
open ChlorosSnfs.Snfs.ClientCalls

variable {Fs : Type}

/-! ## Paths of components -/

/-- A component of a path that FUSE passes on: it has resolved `.` and `..`
itself. -/
structure Component (name : CString) : Prop where
  piece : Piece name.bytes
  short : name.bytes.length ≤ snfsMaxFilenameLength
  notHere : name.bytes ≠ [46]
  notUp : name.bytes ≠ [46, 46]

/-- The place of joined components in a tree. -/
def placeOf (names : List CString) : List Bytes := names.map CString.bytes

theorem piece_of_mem_placeOf {names : List CString}
    (components : ∀ name ∈ names, Component name) :
    ∀ part ∈ placeOf names, Piece part := by
  intro part member
  obtain ⟨name, inNames, rfl⟩ := List.mem_map.mp member
  exact (components name inNames).piece

theorem pieces_joinedPath {names : List CString}
    (components : ∀ name ∈ names, Component name) :
    pieces (joinedPath names).bytes = placeOf names :=
  pieces_joined (piece_of_mem_placeOf components)

theorem tokens_joinedPath {names : List CString}
    (components : ∀ name ∈ names, Component name) :
    tokens (joinedPath names) = names := by
  have injective : Function.Injective CString.bytes :=
    fun _ _ same => cstring_ext same
  apply injective.list_map
  rw [tokens_bytes, pieces_joinedPath components]
  rfl

theorem short_of_component {names : List CString}
    (components : ∀ name ∈ names, Component name) :
    ∀ name ∈ tokens (joinedPath names),
      name.bytes.length ≤ snfsMaxFilenameLength := by
  rw [tokens_joinedPath components]
  exact fun name member => (components name member).short

/-- Names that are neither `.` nor `..` are steps down. -/
theorem map_toStep {parts : List Bytes} (notHere : [46] ∉ parts)
    (notUp : [46, 46] ∉ parts) : parts.map toStep = parts.map .down := by
  apply List.map_congr_left
  intro part member
  have first : part ≠ [46] := by
    rintro rfl
    exact notHere member
  have second : part ≠ [46, 46] := by
    rintro rfl
    exact notUp member
  rw [toStep, if_neg first, if_neg second]

theorem notMem_placeOf {names : List CString}
    (components : ∀ name ∈ names, Component name) :
    [46] ∉ placeOf names ∧ [46, 46] ∉ placeOf names := by
  constructor
  · intro member
    obtain ⟨name, inNames, same⟩ := List.mem_map.mp member
    exact (components name inNames).notHere same
  · intro member
    obtain ⟨name, inNames, same⟩ := List.mem_map.mp member
    exact (components name inNames).notUp same

theorem steps_joinedPath {names : List CString}
    (components : ∀ name ∈ names, Component name) :
    (pathOf (joinedPath names)).steps = (placeOf names).map .down := by
  have notDots := notMem_placeOf components
  rw [pathOf, stepsOf, pieces_joinedPath components,
    map_toStep notDots.1 notDots.2]

theorem slash_joinedPath {names : List CString} (nonempty : names ≠ [])
    (components : ∀ name ∈ names, Component name) :
    (pathOf (joinedPath names)).slash = false := by
  have notEmpty : placeOf names ≠ [] := by
    rw [placeOf, Ne, List.map_eq_nil_iff]
    exact nonempty
  exact decide_eq_false
    (getLast?_joined_ne_slash notEmpty (piece_of_mem_placeOf components))

/-- Joined components lead to their place and nowhere else. -/
theorem leadsTo_joinedPath {names : List CString} (files : Files)
    (components : ∀ name ∈ names, Component name) :
    leadsTo files (joinedPath names) =
      (files.node (placeOf names)).map Node.isDir := by
  by_cases atRoot : names = []
  · subst atRoot
    obtain ⟨ino, here⟩ := files.root
    have place : placeOf [] = [] := rfl
    rw [joinedPath_nil, leadsTo_rootPath, place, here]
    rfl
  · have resolve : resolvePath files (joinedPath names) =
        files.walk [] ((placeOf names).map .down) := by
      rw [resolvePath, if_neg (joinedPath_nonempty names), DirTree.resolve,
        steps_joinedPath components, slash_joinedPath atRoot components]
      exact congrArg _ (List.append_nil _)
    rw [leadsTo, resolve]
    cases here : files.node (placeOf names) with
    | some node =>
        have found : files.node (placeOf names) ≠ none := by
          rw [here]
          exact Option.some_ne_none node
        rw [DirTree.walk_down found]
        simp [DirTree.isDirAt, here]
    | none =>
        cases walked : files.walk [] ((placeOf names).map .down) with
        | error reason => rfl
        | ok place =>
            have start := DirTree.node_ne_none_of_isDirAt files.isDirAt_root
            exact absurd here
              ((DirTree.walk_down_iff start).mp ⟨place, walked⟩)

theorem resolves_of_node {names : List CString} {files : Files}
    (components : ∀ name ∈ names, Component name)
    (found : files.node (placeOf names) ≠ none) :
    Resolves (leadsTo files) names := by
  constructor
  · rw [leadsTo_joinedPath files components]
    simpa using found
  · intro first last split nonempty
    have inFirst : ∀ name ∈ first, Component name := by
      intro name member
      exact components name (by rw [split]; exact List.mem_append_left _ member)
    rw [split, placeOf, List.map_append] at found
    have lastPlaces : last.map CString.bytes ≠ [] := by
      rw [Ne, List.map_eq_nil_iff]
      exact nonempty
    obtain ⟨ino, here⟩ := DirTree.isDirAt_iff.mp
      (DirTree.isDirAt_of_below lastPlaces found)
    rw [leadsTo_joinedPath files inFirst, placeOf, here]
    rfl

/-! ## What is asked of the calls -/

/-- `creat` empties the file its path leads to, `mkdir` and `rename` leave the
contents of all files, by inode, as they are. -/
structure Truncates (kernel : Kernel Fs) (files : Fs → Files)
    (contents : Fs → Nat → Bytes) : Prop where
  undisturbed : Undisturbed kernel contents
  creat : ∀ path mode fs fd, (kernel (.creat path mode) fs).1 = .ok fd →
    ∀ ino, (∀ isDir, (files (kernel (.creat path mode) fs).2).node
        (locationOf path) ≠ some ⟨ino, isDir⟩) →
      contents (kernel (.creat path mode) fs).2 ino = contents fs ino
  mkdir : ∀ path mode fs, (kernel (.mkdir path mode) fs).1 = .ok () →
    contents (kernel (.mkdir path mode) fs).2 = contents fs
  rename : ∀ oldPath newPath fs, (kernel (.rename oldPath newPath) fs).1 = .ok () →
    contents (kernel (.rename oldPath newPath) fs).2 = contents fs

/-- A server on a tree, in any state it comes to with fresh draws, right after
`server_mount`. -/
structure MountedOn (kernel : Kernel Fs) (files : Fs → Files)
    (contents : Fs → Nat → Bytes) (root : Fhandle) (server : Server Fs) :
    Prop where
  onTree : OnTree kernel files
  truncates : Truncates kernel files contents
  reached : ∃ fs draws events before memory, List.Nodup draws ∧
    (∀ draw ∈ draws, SpellsNoName draw) ∧
    runLabels (step kernel) (started fs draws) events = some before ∧
    serverMount ⟨kernel, memory⟩ before = .ok (some root, server)

/-- A following `lookup` of the path succeeds, with a handle as expected. -/
def Followed (kernel : Kernel Fs) (root : Fhandle) (names : List CString)
    (after : Server Fs) (expected : Fhandle → Prop) : Prop :=
  names.length ≤ after.draws.length →
    ∀ (again : Link Fs) other, again.kernel = kernel → ∃ found last,
      lookup again root (joinedPath names) other after =
        .ok ((true, found), last) ∧ expected found

/-- A file or directory is at the place, an old one if there was one, and
everything else is as it was. -/
structure MadeAt (files next : Files) (place : List Bytes) (isDir : Bool) :
    Prop where
  here : ∃ ino, next.node place = some ⟨ino, isDir⟩
  kept : ∀ found, files.node place = some found → next.node place = some found
  others : ∀ other, other ≠ place → next.node other = files.node other

/-- What was at `source` and below is at `target` and below; nothing else is
new, and only `source` may be gone. -/
structure Relocated (files next : Files) (source target : List Bytes) : Prop where
  taken : files.node source ≠ none
  below : ∀ rest, next.node (target ++ rest) = files.node (source ++ rest)
  others : ∀ place, ¬ target <+: place → next.node place = files.node place ∨
    source <+: place ∧ next.node place = none

def CreateAgrees (names : List CString) : Prop :=
  ∀ (Fs : Type) (link : Link Fs) files contents root server,
    MountedOn link.kernel files contents root server →
    ∀ mode fh handle after,
      snfsCreate link (joinedPath names) mode fh server =
        .ok ((0, handle), after) →
      MadeAt (files server.fs) (files after.fs) (placeOf names) false ∧
      (∀ ino, (∀ isDir,
          (files after.fs).node (placeOf names) ≠ some ⟨ino, isDir⟩) →
        contents after.fs ino = contents server.fs ino) ∧
      Followed link.kernel root names after (· = handle)

def MkdirAgrees (names : List CString) : Prop :=
  ∀ (Fs : Type) (link : Link Fs) files contents root server,
    MountedOn link.kernel files contents root server →
    ∀ mode after,
      snfsMkdir link (joinedPath names) mode server = .ok (0, after) →
      MadeAt (files server.fs) (files after.fs) (placeOf names) true ∧
      (files server.fs).node (placeOf names) = none ∧
      contents after.fs = contents server.fs ∧
      Followed link.kernel root names after fun _ => True

def RenameAgrees (names : List CString) : Prop :=
  ∀ (Fs : Type) (link : Link Fs) files contents root server,
    MountedOn link.kernel files contents root server →
    ∀ oldNames, (∀ name ∈ oldNames, Component name) →
      oldNames.length ≤ server.draws.length → ∀ after,
      snfsRename link root (joinedPath oldNames) (joinedPath names) server =
        .ok (0, after) →
      Relocated (files server.fs) (files after.fs) (placeOf oldNames)
        (placeOf names) ∧
      contents after.fs = contents server.fs ∧
      Followed link.kernel root names after fun _ => True

/-! ## Paths that fit -/

theorem MountedOn.fresh {kernel : Kernel Fs} {files : Fs → Files}
    {contents : Fs → Nat → Bytes} {root : Fhandle} {server : Server Fs}
    (mounted : MountedOn kernel files contents root server) :
    ∃ pairs, Fresh server pairs ∧ pairs rootPath = some root := by
  obtain ⟨fs, draws, events, before, memory, nodup, apart, run, mount⟩ :=
    mounted.reached
  obtain ⟨pairs, fresh⟩ := run_fresh nodup apart run
  exact serverMount_root fresh mount

theorem followed_of_node {kernel : Kernel Fs} {files : Fs → Files}
    (onTree : OnTree kernel files) {root : Fhandle} {names : List CString}
    {after : Server Fs} {pairs : CString ≃. Fhandle} (fresh : Fresh after pairs)
    (rootPair : pairs rootPath = some root)
    (components : ∀ name ∈ names, Component name)
    (found : (files after.fs).node (placeOf names) ≠ none) :
    Followed kernel root names after fun handle =>
      ∀ stored, pairs (joinedPath names) = some stored → handle = stored := by
  intro enough again other sameKernel
  subst sameKernel
  have sameTokens := tokens_joinedPath components
  have supply : unnamed pairs [] (tokens (joinedPath names)) ≤
      after.draws.length := by
    rw [sameTokens]
    exact (unnamed_le_length pairs [] names).trans enough
  obtain ⟨last, more, walked, outcome⟩ := lookup_walk
    (OnTree.standing onTree after.fs) fresh (.refl _) rootPair
    (short_of_component components) supply other
  rw [sameTokens] at outcome
  rcases outcome with ⟨_, handle, called, pair, _⟩ | ⟨misses, _⟩
  · refine ⟨handle, last, called, ?_⟩
    intro stored known
    rw [walked.kept _ _ known] at pair
    exact (Option.some.inj pair).symm
  · exact absurd (resolves_of_node components found) misses

theorem locationOf_joinedPath {names : List CString}
    (components : ∀ name ∈ names, Component name) :
    locationOf (joinedPath names) = placeOf names := by
  rw [locationOf, steps_joinedPath components, normal_down, List.nil_append]

theorem madeAt_of_added {files next : Files} {place : List Bytes}
    {isDir : Bool} (added : DirTree.Added files next place isDir) :
    MadeAt files next place isDir := by
  refine ⟨⟨files.nextIno, by rw [added.node, if_pos rfl]⟩, ?_, ?_⟩
  · intro found here
    rw [added.free] at here
    cases here
  · intro other different
    rw [added.node, if_neg different]

theorem madeAt_of_creat {files next : Files} {path : CString} {mode : UInt32}
    (created : filesAfter files (.creat path mode) = some next) :
    MadeAt files next (locationOf path) false := by
  rcases creat_of_filesAfter created with ⟨rfl, ino, here⟩ | added
  · exact ⟨⟨ino, here⟩, fun _ same => same, fun _ _ => rfl⟩
  · exact madeAt_of_added added

theorem relocated_of_rename {files next : Files} {oldPath newPath : CString}
    (renamed : filesAfter files (.rename oldPath newPath) = some next) :
    Relocated files next (locationOf oldPath) (locationOf newPath) := by
  obtain ⟨_, taken, result⟩ := rename_of_filesAfter renamed
  refine ⟨taken, ?_, ?_⟩
  · intro rest
    rcases result with ⟨same, rfl⟩ | movedTo
    · rw [same]
    · rw [movedTo.node, DirTree.movedNode_below]
  · intro place notTarget
    rcases result with ⟨_, rfl⟩ | movedTo
    · exact Or.inl rfl
    · rw [movedTo.node]
      by_cases inSource : locationOf oldPath <+: place
      · exact Or.inr ⟨inSource, by
          rw [DirTree.movedNode, if_neg notTarget, if_pos inSource]⟩
      · exact Or.inl (DirTree.movedNode_other files notTarget inSource)

def Fits (names : List CString) : Prop :=
  (joinedPath names).bytes.length ≤ snfsMaxFilenameLength

theorem createAgrees_of_fits {names : List CString}
    (components : ∀ name ∈ names, Component name) (fits : Fits names) :
    CreateAgrees names := by
  intro Fs link files contents root server mounted mode fh handle after returned
  obtain ⟨pairs, fresh, rootPair⟩ := mounted.fresh
  obtain ⟨⟨fd, called⟩, more, freshAfter, gains⟩ :=
    snfsCreate_eq_zero fresh returned
  rw [sent_of_short fits] at called gains
  have made := madeAt_of_creat (mounted.onTree.of_ok called)
  rw [locationOf_joinedPath components] at made
  refine ⟨made, ?_, ?_⟩
  · intro ino notHere
    have succeeded : (link.kernel (.creat (joinedPath names) mode) server.fs).1 =
        .ok fd := by rw [called]
    have kept := mounted.truncates.creat (joinedPath names) mode server.fs fd
      succeeded ino (by rw [called, locationOf_joinedPath components]; exact notHere)
    rw [called] at kept
    exact kept
  · obtain ⟨ino, here⟩ := made.here
    have followed := followed_of_node mounted.onTree freshAfter
      (gains.kept _ _ rootPair) components (by
        rw [here]
        exact Option.some_ne_none _)
    intro enough again other sameKernel
    obtain ⟨found, last, called, expected⟩ := followed enough again other sameKernel
    exact ⟨found, last, called, expected handle gains.pair⟩

theorem mkdirAgrees_of_fits {names : List CString}
    (components : ∀ name ∈ names, Component name) (fits : Fits names) :
    MkdirAgrees names := by
  intro Fs link files contents root server mounted mode after returned
  obtain ⟨pairs, fresh, rootPair⟩ := mounted.fresh
  obtain ⟨called, more, handle, freshAfter, gains⟩ :=
    snfsMkdir_eq_zero fresh returned
  rw [sent_of_short fits] at called gains
  have added := mkdir_of_filesAfter (mounted.onTree.of_ok called)
  rw [locationOf_joinedPath components] at added
  have made := madeAt_of_added added
  refine ⟨made, added.free, ?_, ?_⟩
  · have kept := mounted.truncates.mkdir (joinedPath names) (mode ||| sIfdir)
      server.fs (by rw [called])
    rw [called] at kept
    exact kept
  · obtain ⟨ino, here⟩ := made.here
    have followed := followed_of_node mounted.onTree freshAfter
      (gains.kept _ _ rootPair) components (by
        rw [here]
        exact Option.some_ne_none _)
    intro enough again other sameKernel
    obtain ⟨found, last, called, _⟩ := followed enough again other sameKernel
    exact ⟨found, last, called, trivial⟩

theorem renameAgrees_of_fits {names : List CString}
    (components : ∀ name ∈ names, Component name) (fits : Fits names) :
    RenameAgrees names := by
  intro Fs link files contents root server mounted oldNames oldComponents supply
    after returned
  obtain ⟨pairs, fresh, rootPair⟩ := mounted.fresh
  have sameTokens := tokens_joinedPath oldComponents
  obtain ⟨⟨fs, quiet, called⟩, more, freshAfter, kept⟩ := snfsRename_eq_zero
    (OnTree.standing mounted.onTree server.fs) fresh rootPair
    (short_of_component oldComponents) (by rw [sameTokens]; exact supply) returned
  rw [sameTokens] at called kept
  rw [sent_of_short fits] at called
  have sameFiles := quiet.served_eq mounted.onTree.undisturbed
  have sameContents := quiet.served_eq mounted.truncates.undisturbed
  have renamed := mounted.onTree.of_ok called
  have nonempty := (rename_of_filesAfter renamed).1
  have relocated := relocated_of_rename renamed
  rw [sameFiles, locationOf_joinedPath oldComponents, locationOf_joinedPath components]
    at relocated
  have notRoot : rootPath ≠ joinedPath oldNames := by
    intro same
    rw [← same] at nonempty
    exact nonempty rfl
  refine ⟨relocated, ?_, ?_⟩
  · have renamed := mounted.truncates.rename (joinedPath oldNames)
      (joinedPath names) fs (by rw [called])
    rw [called] at renamed
    exact renamed.trans sameContents
  · have here := relocated.below []
    rw [List.append_nil, List.append_nil] at here
    have followed := followed_of_node mounted.onTree freshAfter
      (kept _ _ rootPair notRoot) components (by
        rw [here]
        exact relocated.taken)
    intro enough again other sameKernel
    obtain ⟨found, last, called, _⟩ := followed enough again other sameKernel
    exact ⟨found, last, called, trivial⟩

/-! ## Paths that are cut off -/

def EndsInSlash (path : CString) : Prop := path.bytes.getLast? = some slash

/-- The last piece is `.` or `..`. -/
def EndsInDots (path : CString) : Prop :=
  (pieces path.bytes).getLast? = some [46] ∨
    (pieces path.bytes).getLast? = some [46, 46]

theorem entry_of_endsInDots {path : CString} (dots : EndsInDots path)
    (files : Files) : files.entry (pathOf path) = none := by
  have last : (pathOf path).steps.getLast? = some .here ∨
      (pathOf path).steps.getLast? = some .up := by
    rw [pathOf, stepsOf, List.getLast?_map]
    rcases dots with here | up
    · rw [here]
      exact Or.inl rfl
    · rw [up]
      exact Or.inr rfl
  rw [DirTree.entry]
  rcases last with here | up
  · rw [here]
  · rw [up]

theorem creat_of_endsInDots {path : CString} (dots : EndsInDots path)
    (files : Files) (mode : UInt32) :
    filesAfter files (.creat path mode) = none := by
  rw [filesAfter, DirTree.creat, entry_of_endsInDots dots]
  simp

theorem creat_of_endsInSlash {path : CString} (slashed : EndsInSlash path)
    (files : Files) (mode : UInt32) :
    filesAfter files (.creat path mode) = none := by
  have slashAtEnd : (pathOf path).slash = true := decide_eq_true slashed
  rw [filesAfter, DirTree.creat, if_pos slashAtEnd, ite_self]

theorem mkdir_of_endsInDots {path : CString} (dots : EndsInDots path)
    (files : Files) (mode : UInt32) :
    filesAfter files (.mkdir path mode) = none := by
  rw [filesAfter, DirTree.mkdir, entry_of_endsInDots dots]
  simp

theorem rename_of_endsInDots {oldPath newPath : CString}
    (dots : EndsInDots newPath) (files : Files) :
    filesAfter files (.rename oldPath newPath) = none := by
  rw [filesAfter, DirTree.rename, entry_of_endsInDots dots]
  simp

/-- A call that always fails never returns 0. -/
theorem createAgrees_of_fails {names : List CString}
    (fails : ∀ files mode, filesAfter files
      (.creat (CString.sent (joinedPath names)) mode) = none) :
    CreateAgrees names := by
  intro Fs link files contents root server mounted mode fh handle after returned
  obtain ⟨pairs, fresh, _⟩ := mounted.fresh
  obtain ⟨⟨fd, called⟩, _⟩ := snfsCreate_eq_zero fresh returned
  have succeeded := mounted.onTree.of_ok called
  rw [fails] at succeeded
  cases succeeded

theorem mkdirAgrees_of_endsInDots {names : List CString}
    (dots : EndsInDots (CString.sent (joinedPath names))) :
    MkdirAgrees names := by
  intro Fs link files contents root server mounted mode after returned
  obtain ⟨pairs, fresh, _⟩ := mounted.fresh
  obtain ⟨called, _⟩ := snfsMkdir_eq_zero fresh returned
  have succeeded := mounted.onTree.of_ok called
  rw [mkdir_of_endsInDots dots] at succeeded
  cases succeeded

theorem renameAgrees_of_endsInDots {names : List CString}
    (dots : EndsInDots (CString.sent (joinedPath names))) :
    RenameAgrees names := by
  intro Fs link files contents root server mounted oldNames oldComponents supply
    after returned
  obtain ⟨pairs, fresh, rootPair⟩ := mounted.fresh
  obtain ⟨⟨fs, _, called⟩, _⟩ := snfsRename_eq_zero
    (OnTree.standing mounted.onTree server.fs) fresh rootPair
    (short_of_component oldComponents)
    (by rw [tokens_joinedPath oldComponents]; exact supply) returned
  have succeeded := mounted.onTree.of_ok called
  rw [rename_of_endsInDots dots] at succeeded
  cases succeeded

/-- Pieces none of which is `.` or `..` are steps down. -/
theorem steps_of_pieces {path : CString} {parts : List Bytes}
    (split : pieces path.bytes = parts) (notHere : [46] ∉ parts)
    (notUp : [46, 46] ∉ parts) : (pathOf path).steps = parts.map .down := by
  rw [pathOf, stepsOf, split, map_toStep notHere notUp]

/-- Where a path that is cut off leads: not to its own place nor below it. -/
structure CutTo (names : List CString) (parent : List Bytes) (last : Bytes) :
    Prop where
  steps : (pathOf (CString.sent (joinedPath names))).steps =
    (parent ++ [last]).map .down
  elsewhere : ¬ placeOf names <+: parent ++ [last]

theorem not_fits_nonempty {names : List CString} (tooLong : ¬ Fits names) :
    names ≠ [] := by
  rintro rfl
  apply tooLong
  rw [Fits]
  decide

theorem exists_cutTo {names : List CString}
    (components : ∀ name ∈ names, Component name) (tooLong : ¬ Fits names)
    (notDots : ¬ EndsInDots (CString.sent (joinedPath names))) :
    ∃ parent last, CutTo names parent last := by
  have notEmpty : placeOf names ≠ [] := by
    rw [placeOf, Ne, List.map_eq_nil_iff]
    exact not_fits_nonempty tooLong
  have whole : (joinedPath names).bytes = (placeOf names).flatMap (slash :: ·) :=
    joined_eq_flatMap notEmpty
  have long : snfsMaxFilenameLength ≤
      ((placeOf names).flatMap (slash :: ·)).length := by
    rw [Fits, whole] at tooLong
    omega
  obtain ⟨before, piece, after, part, split, isPart, cut⟩ :=
    take_flatMap (by decide : 0 < snfsMaxFilenameLength) long
  have sentBytes : (CString.sent (joinedPath names)).bytes =
      before.flatMap (slash :: ·) ++ slash :: part := by
    rw [← cut, ← whole]
    rfl
  have arePieces := piece_of_mem_placeOf components
  have beforePieces : ∀ other ∈ before, Piece other := by
    intro other member
    exact arePieces other (by rw [split]; exact List.mem_append_left _ member)
  have notDotsInPlace := notMem_placeOf components
  rw [split] at notDotsInPlace
  have sentPieces : pieces (CString.sent (joinedPath names)).bytes =
      before ++ pieces part := by
    rw [sentBytes, pieces_append_slash, pieces_flatMap beforePieces]
  by_cases noPart : part = []
  · -- cut off behind a slash
    subst noPart
    rw [pieces_nil, List.append_nil] at sentPieces
    have someBefore : before ≠ [] := by
      rintro rfl
      have lengths := congrArg List.length cut
      rw [List.length_take_of_le long, snfsMaxFilenameLength] at lengths
      simp at lengths
    have steps := steps_of_pieces sentPieces
      (fun member => notDotsInPlace.1 (List.mem_append_left _ member))
      (fun member => notDotsInPlace.2 (List.mem_append_left _ member))
    obtain ⟨parent, last, rfl⟩ :=
      (List.eq_nil_or_concat' before).resolve_left someBefore
    refine ⟨parent, last, steps, ?_⟩
    intro inside
    have lengths := inside.length_le
    rw [split] at lengths
    simp only [List.length_append, List.length_cons] at lengths
    omega
  · have inPlace : piece ∈ placeOf names := by
      rw [split]
      simp
    have partPiece : Piece part :=
      ⟨noPart, fun inside => (arePieces piece inPlace).2 (isPart.subset inside)⟩
    rw [pieces_of_piece partPiece] at sentPieces
    have steps := steps_of_pieces sentPieces
      (by
        intro member
        rcases List.mem_append.mp member with inBefore | isLast
        · exact notDotsInPlace.1 (List.mem_append_left _ inBefore)
        · apply notDots
          rw [List.mem_singleton] at isLast
          rw [EndsInDots, sentPieces, ← isLast, List.getLast?_concat]
          exact Or.inl rfl)
      (by
        intro member
        rcases List.mem_append.mp member with inBefore | isLast
        · exact notDotsInPlace.2 (List.mem_append_left _ inBefore)
        · apply notDots
          rw [List.mem_singleton] at isLast
          rw [EndsInDots, sentPieces, ← isLast, List.getLast?_concat]
          exact Or.inr rfl)
    refine ⟨before, part, steps, ?_⟩
    intro inside
    -- only the whole of the last piece could be there, and then nothing is cut
    rw [split, List.prefix_append_right_inj] at inside
    have lengths := inside.length_le
    rw [List.length_cons, List.length_singleton] at lengths
    have noMore : after = [] := List.length_eq_zero_iff.mp (by omega)
    subst noMore
    have samePart : piece = part := by
      simpa using inside.eq_of_length rfl
    have uncut := congrArg List.length cut
    rw [← samePart, List.length_take_of_le long] at uncut
    apply tooLong
    rw [Fits, whole, split, List.flatMap_append, List.flatMap_singleton, ← uncut]

/-! A server on a tree in which the cut path is free. -/

/-- The server with root handle 7 and two more handles to draw. -/
def mountedTree (files : Files) : Server Files :=
  ⟨files, paired emptyDb rootPath 7, [9, 11], [(.mount 7, 12)], []⟩

theorem mountedOn_mountedTree (files : Files) :
    MountedOn treeKernel id (fun _ _ => []) 7 (mountedTree files) where
  onTree := treeKernel_onTree
  truncates := ⟨⟨fun _ _ _ => rfl, fun _ _ _ _ => rfl⟩, fun _ _ _ _ _ _ _ => rfl,
    fun _ _ _ _ => rfl, fun _ _ _ _ => rfl⟩
  reached := by
    refine ⟨files, [7, 9, 11], [], _, quietLink.leftover 0, by decide, ?_, rfl, rfl⟩
    intro draw member
    apply spellsNoName_of_zero
    simp only [List.mem_cons, List.not_mem_nil, or_false] at member
    rcases member with rfl | rfl | rfl
    · decide
    · decide
    · decide

theorem sent_bytes_nonempty (names : List CString) :
    (CString.sent (joinedPath names)).bytes ≠ [] := by
  intro empty
  have none := (List.take_eq_nil_iff.mp empty).resolve_left (by decide)
  exact joinedPath_nonempty names none

theorem joinedPath_ne_rootPath {names : List CString} (tooLong : ¬ Fits names) :
    joinedPath names ≠ rootPath := by
  intro same
  apply tooLong
  rw [Fits, same]
  decide

theorem node_put_none {files : Files} {names : List CString}
    {parent : List Bytes} {last : Bytes} (cutTo : CutTo names parent last)
    (within : ∀ place, files.node place ≠ none → place <+: parent)
    (entry : Entry files) (atTarget : entry.place = parent ++ [last])
    (isDir : Bool) (free : files.node entry.place = none) :
    (files.put entry isDir free).node (placeOf names) = none := by
  have elsewhere := cutTo.elsewhere
  have notTarget : placeOf names ≠ entry.place := by
    intro same
    rw [same, atTarget] at elsewhere
    exact elsewhere List.prefix_rfl
  refine (if_neg notTarget).trans ?_
  by_contra found
  exact elsewhere ((within _ found).trans (List.prefix_append parent [last]))

theorem free_of_within {files : Files} {parent : List Bytes} {last : Bytes}
    (within : ∀ place, files.node place ≠ none → place <+: parent) :
    files.node (parent ++ [last]) = none := by
  by_contra found
  have lengths := (within _ found).length_le
  rw [List.length_append, List.length_singleton] at lengths
  omega

theorem not_createAgrees_of_cutTo {names : List CString}
    (tooLong : ¬ Fits names)
    (notSlash : ¬ EndsInSlash (CString.sent (joinedPath names)))
    {parent : List Bytes} {last : Bytes} (cutTo : CutTo names parent last) :
    ¬ CreateAgrees names := by
  intro agrees
  obtain ⟨files, directory, within⟩ := DirTree.exists_chain parent
  have found := DirTree.entry_of_down cutTo.steps directory
  have free : files.node (parent ++ [last]) = none := free_of_within within
  have noSlash : (pathOf (CString.sent (joinedPath names))).slash = false :=
    decide_eq_false notSlash
  have called : quietLink.kernel (.creat (CString.sent (joinedPath names)) 0)
      files = (.ok 3, files.put ⟨parent, last, directory⟩ false free) := by
    show treeKernel (.creat (CString.sent (joinedPath names)) 0) files = _
    rw [treeKernel, filesAfter, if_neg (sent_bytes_nonempty names),
      DirTree.creat_of_free noSlash found free]
    rfl
  have mounted := mountedOn_mountedTree files
  obtain ⟨pairs, fresh, _⟩ := mounted.fresh
  obtain ⟨handle, after, returned, afterFs⟩ := snfsCreate_of_created fresh
    (joinedPath_ne_rootPath tooLong) (by simp [mountedTree]) called 0
  obtain ⟨ino, here⟩ :=
    (agrees Files quietLink id _ 7 _ mounted 0 0 handle after returned).1.here
  have missing := node_put_none cutTo within ⟨parent, last, directory⟩ rfl false free
  rw [afterFs] at here
  exact Option.some_ne_none _ (here.symm.trans missing)

theorem not_mkdirAgrees_of_cutTo {names : List CString}
    (tooLong : ¬ Fits names)
    {parent : List Bytes} {last : Bytes} (cutTo : CutTo names parent last) :
    ¬ MkdirAgrees names := by
  intro agrees
  obtain ⟨files, directory, within⟩ := DirTree.exists_chain parent
  have found := DirTree.entry_of_down cutTo.steps directory
  have free : files.node (parent ++ [last]) = none := free_of_within within
  have called : quietLink.kernel (.mkdir (CString.sent (joinedPath names))
      (0 ||| sIfdir)) files =
      (.ok (), files.put ⟨parent, last, directory⟩ true free) := by
    show treeKernel (.mkdir (CString.sent (joinedPath names)) (0 ||| sIfdir)) files = _
    rw [treeKernel, filesAfter, if_neg (sent_bytes_nonempty names),
      DirTree.mkdir_of_free found free]
    rfl
  have mounted := mountedOn_mountedTree files
  obtain ⟨pairs, fresh, _⟩ := mounted.fresh
  obtain ⟨after, returned, afterFs⟩ := snfsMkdir_of_made fresh
    (joinedPath_ne_rootPath tooLong) (by simp [mountedTree]) called
  obtain ⟨ino, here⟩ :=
    (agrees Files quietLink id _ 7 _ mounted 0 after returned).1.here
  have missing := node_put_none cutTo within ⟨parent, last, directory⟩ rfl true free
  rw [afterFs] at here
  exact Option.some_ne_none _ (here.symm.trans missing)

theorem component_nameA : Component nameA :=
  ⟨⟨by decide, by decide⟩, by decide, by decide, by decide⟩

theorem letterB_noNul : (0 : UInt8) ∉ [(98 : UInt8)] := by decide

def nameB : CString := ⟨[98], letterB_noNul⟩

theorem component_nameB : Component nameB :=
  ⟨⟨by decide, by decide⟩, by decide, by decide, by decide⟩

/-- A name at the root that does not lead to a given place. -/
theorem exists_aside (place : List Bytes) :
    ∃ name, Component name ∧ ¬ [name.bytes] <+: place := by
  by_cases underA : [nameA.bytes] <+: place
  · refine ⟨nameB, component_nameB, ?_⟩
    intro underB
    have same := List.prefix_of_prefix_length_le underB underA le_rfl
    exact absurd (same.eq_of_length rfl) (by decide)
  · exact ⟨nameA, component_nameA, underA⟩

/-- What lies beside a cut path and is renamed to it does not come to the
place of the whole path. -/
theorem movedNode_none {files : Files} {names : List CString} {name : Bytes}
    {parent : List Bytes} {last : Bytes} (cutTo : CutTo names parent last)
    (within : ∀ place, files.node place ≠ none →
      place <+: parent ∨ place = [name]) (aside : ¬ [name] <+: parent ++ [last]) :
    files.movedNode [name] (parent ++ [last]) (placeOf names) = none := by
  rw [DirTree.movedNode]
  split
  · rename_i inside
    obtain ⟨rest, same⟩ := inside
    rw [← same, List.drop_left]
    by_contra found
    rcases within _ found with inParent | alone
    · exact aside ((List.prefix_append [name] rest).trans
        (inParent.trans (List.prefix_append parent [last])))
    · have noRest : rest = [] := by simpa using alone
      rw [noRest, List.append_nil] at same
      exact cutTo.elsewhere (same ▸ List.prefix_rfl)
  · split
    · rfl
    · rename_i notSource
      by_contra found
      rcases within _ found with inParent | alone
      · exact cutTo.elsewhere
          (inParent.trans (List.prefix_append parent [last]))
      · rw [alone] at notSource
        exact notSource List.prefix_rfl

theorem not_renameAgrees_of_cutTo {names : List CString}
    {parent : List Bytes} {last : Bytes} (cutTo : CutTo names parent last) :
    ¬ RenameAgrees names := by
  intro agrees
  obtain ⟨name, component, aside⟩ := exists_aside (parent ++ [last])
  have besideParent : ¬ [name.bytes] <+: parent := fun inside =>
    aside (inside.trans (List.prefix_append parent [last]))
  obtain ⟨files, directory, atName, within⟩ :=
    DirTree.exists_chain_beside besideParent
  have free : files.node (parent ++ [last]) = none := by
    by_contra found
    rcases within _ found with inParent | alone
    · have lengths := inParent.length_le
      rw [List.length_append, List.length_singleton] at lengths
      omega
    · rw [alone] at aside
      exact aside List.prefix_rfl
  have components : ∀ other ∈ [name], Component other := by
    intro other member
    rw [List.mem_singleton] at member
    rw [member]
    exact component
  have sameTokens := tokens_joinedPath components
  have sourceFound : files.entry (pathOf (joinedPath [name])) =
      some ⟨[], name.bytes, files.isDirAt_root⟩ :=
    DirTree.entry_of_down (steps_joinedPath components) files.isDirAt_root
  have targetFound := DirTree.entry_of_down cutTo.steps directory
  have named : ¬ ((joinedPath [name]).bytes = [] ∨
      (CString.sent (joinedPath names)).bytes = []) := by
    rw [not_or]
    exact ⟨joinedPath_nonempty [name], sent_bytes_nonempty names⟩
  have called : treeKernel (.rename (joinedPath [name])
      (CString.sent (joinedPath names))) files = (.ok (),
        files.move ⟨[], name.bytes, files.isDirAt_root⟩
          ⟨parent, last, directory⟩ aside) := by
    rw [treeKernel, filesAfter, if_neg named,
      DirTree.rename_of_free sourceFound targetFound atName free aside]
    rfl
  have mounted := mountedOn_mountedTree files
  obtain ⟨pairs, fresh, rootPair⟩ := mounted.fresh
  have resolves := resolves_of_node components
    (DirTree.node_ne_none_of_isDirAt atName)
  obtain ⟨after, returned, afterFs⟩ : ∃ after,
      snfsRename quietLink 7 (joinedPath [name]) (joinedPath names)
        (mountedTree files) = .ok (0, after) ∧
      after.fs = files.move ⟨[], name.bytes, files.isDirAt_root⟩
        ⟨parent, last, directory⟩ aside := by
    apply snfsRename_of_renamed (OnTree.standing treeKernel_onTree files) fresh
      rootPair (short_of_component components)
    · rw [sameTokens]
      exact (by decide : 1 < 2)
    · rw [sameTokens]
      exact resolves
    · intro middle quiet
      have sameFiles : middle = files :=
        quiet.served_eq treeKernel_onTree.undisturbed
      rw [sameTokens, sameFiles]
      exact called
  have enough : [name].length ≤ (mountedTree files).draws.length :=
    (by decide : 1 ≤ 2)
  have relocated := (agrees Files quietLink id _ 7 _ mounted [name] components
    enough after returned).1
  have here := relocated.below []
  have taken := relocated.taken
  rw [List.append_nil, List.append_nil] at here
  rw [← here, afterFs] at taken
  exact taken (movedNode_none cutTo within aside)

/-! ## When the two agree -/

/-- Whatever the server's files are, a call on a path does what the path says
exactly when all of the path is sent, or when what is sent of it cannot be made
at all. -/
theorem agree_iff_fits {names : List CString}
    (components : ∀ name ∈ names, Component name) :
    (CreateAgrees names ↔ Fits names ∨
      EndsInSlash (CString.sent (joinedPath names)) ∨
      EndsInDots (CString.sent (joinedPath names))) ∧
    (MkdirAgrees names ↔ Fits names ∨
      EndsInDots (CString.sent (joinedPath names))) ∧
    (RenameAgrees names ↔ Fits names ∨
      EndsInDots (CString.sent (joinedPath names))) := by
  refine ⟨⟨?_, ?_⟩, ⟨?_, ?_⟩, ⟨?_, ?_⟩⟩
  · intro agrees
    by_contra neither
    rw [not_or, not_or] at neither
    obtain ⟨tooLong, notSlash, notDots⟩ := neither
    obtain ⟨parent, last, cutTo⟩ := exists_cutTo components tooLong notDots
    exact not_createAgrees_of_cutTo tooLong notSlash cutTo agrees
  · intro condition
    rcases condition with fits | slashed | dots
    · exact createAgrees_of_fits components fits
    · exact createAgrees_of_fails fun files mode =>
        creat_of_endsInSlash slashed files mode
    · exact createAgrees_of_fails fun files mode =>
        creat_of_endsInDots dots files mode
  · intro agrees
    by_contra neither
    rw [not_or] at neither
    obtain ⟨parent, last, cutTo⟩ := exists_cutTo components neither.1 neither.2
    exact not_mkdirAgrees_of_cutTo neither.1 cutTo agrees
  · intro condition
    rcases condition with fits | dots
    · exact mkdirAgrees_of_fits components fits
    · exact mkdirAgrees_of_endsInDots dots
  · intro agrees
    by_contra neither
    rw [not_or] at neither
    obtain ⟨parent, last, cutTo⟩ := exists_cutTo components neither.1 neither.2
    exact not_renameAgrees_of_cutTo cutTo agrees
  · intro condition
    rcases condition with fits | dots
    · exact renameAgrees_of_fits components fits
    · exact renameAgrees_of_endsInDots dots

theorem letters_noNul (count : Nat) :
    (0 : UInt8) ∉ List.replicate count (97 : UInt8) := by
  intro member
  exact absurd (List.eq_of_mem_replicate member) (by decide)

/-- The letter a, so many times. -/
def letters (count : Nat) : CString :=
  ⟨List.replicate count 97, letters_noNul count⟩

theorem piece_letters {count : Nat} (positive : 0 < count) :
    Piece (letters count).bytes := by
  constructor
  · intro empty
    have lengths := congrArg List.length empty
    rw [letters, List.length_replicate, List.length_nil] at lengths
    omega
  · intro member
    exact absurd (List.eq_of_mem_replicate member) (by decide)

theorem notMem_letters (count : Nat) : (46 : UInt8) ∉ (letters count).bytes := by
  intro member
  exact absurd (List.eq_of_mem_replicate member) (by decide)

theorem component_letters {count : Nat} (positive : 0 < count)
    (short : count ≤ snfsMaxFilenameLength) : Component (letters count) where
  piece := piece_letters positive
  short := by
    rw [letters, List.length_replicate]
    exact short
  notHere := by
    intro same
    exact notMem_letters count (by rw [same]; decide)
  notUp := by
    intro same
    exact notMem_letters count (by rw [same]; decide)

theorem joinedPath_letters (count : Nat) :
    (joinedPath [letters count]).bytes = slash :: List.replicate count 97 :=
  List.append_nil _

theorem not_fits_letters : ¬ Fits [letters snfsMaxFilenameLength] := by
  rw [Fits, joinedPath_letters, List.length_cons, List.length_replicate]
  omega

theorem sent_letters :
    (CString.sent (joinedPath [letters snfsMaxFilenameLength])).bytes =
      slash :: (letters 254).bytes := by
  have cut : (CString.sent (joinedPath [letters snfsMaxFilenameLength])).bytes =
      (joinedPath [letters snfsMaxFilenameLength]).bytes.take
        snfsMaxFilenameLength := rfl
  rw [cut, joinedPath_letters, snfsMaxFilenameLength, List.take_succ_cons,
    List.take_replicate]
  rfl

theorem pieces_sent_letters :
    pieces (CString.sent (joinedPath [letters snfsMaxFilenameLength])).bytes =
      [(letters 254).bytes] := by
  rw [sent_letters, pieces_slash, pieces_of_piece (piece_letters (by decide))]

theorem not_endsInDots_letters :
    ¬ EndsInDots (CString.sent (joinedPath [letters snfsMaxFilenameLength])) := by
  rw [EndsInDots, pieces_sent_letters, List.getLast?_singleton, not_or]
  have notDots := notMem_letters 254
  constructor
  · intro same
    rw [Option.some.inj same] at notDots
    exact notDots (by decide)
  · intro same
    rw [Option.some.inj same] at notDots
    exact notDots (by decide)

theorem components_letters :
    ∀ name ∈ [letters snfsMaxFilenameLength], Component name := by
  intro name member
  rw [List.mem_singleton] at member
  rw [member]
  exact component_letters (by decide) le_rfl

theorem agree_iff_fits_letters :
    ¬ MkdirAgrees [letters snfsMaxFilenameLength] := by
  rw [(agree_iff_fits components_letters).2.1, not_or]
  exact ⟨not_fits_letters, not_endsInDots_letters⟩

theorem not_endsInSlash_letters :
    ¬ EndsInSlash (CString.sent (joinedPath [letters snfsMaxFilenameLength])) := by
  rw [EndsInSlash, sent_letters, List.getLast?_cons, letters,
    List.getLast?_replicate]
  decide

/-- A path of one name of 255 letters loses its last letter. -/
theorem letters_cut_off :
    ¬ CreateAgrees [letters snfsMaxFilenameLength] ∧
    ¬ MkdirAgrees [letters snfsMaxFilenameLength] ∧
    ¬ RenameAgrees [letters snfsMaxFilenameLength] := by
  obtain ⟨parent, last, cutTo⟩ :=
    exists_cutTo components_letters not_fits_letters not_endsInDots_letters
  refine ⟨?_, ?_, ?_⟩
  · exact not_createAgrees_of_cutTo not_fits_letters not_endsInSlash_letters cutTo
  · exact not_mkdirAgrees_of_cutTo not_fits_letters cutTo
  · exact not_renameAgrees_of_cutTo cutTo

end ChlorosSnfs.Snfs.PathAgreement
