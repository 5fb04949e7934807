import ChlorosSnfs.Snfs.Client
import ChlorosSnfs.Snfs.FreshDraws
import ChlorosSnfs.Snfs.TreeKernel

/-!
# Walking a path

`lookup` sends one LOOKUP for each piece of a path, and the server joins the
piece to the name of the handle before it.  By induction over the pieces the
handle reached leads to the pieces joined, and the walk ends exactly at the
first prefix that is no directory or has no such entry.
-/

set_option autoImplicit false

namespace ChlorosSnfs.Snfs.PathWalk

open ChlorosSnfs.Library
open ChlorosSnfs.Library.FileTree (DirTree)
open ChlorosSnfs.Library.Paths
open ChlorosSnfs.Library.Runs
open ChlorosSnfs.Snfs.Fhandledb
open ChlorosSnfs.Snfs.Messages
open ChlorosSnfs.Snfs.Syscalls
open ChlorosSnfs.Snfs.Handlers
open ChlorosSnfs.Snfs.ServeLoop
open ChlorosSnfs.Snfs.HandlerEffects
open ChlorosSnfs.Snfs.Client
open ChlorosSnfs.Snfs.FreshDraws
open ChlorosSnfs.Snfs.TreeKernel

variable {Fs : Type}

/-! ## Joined names -/

/-- `/` followed by the names with single slashes between them. -/
def joinedPath (names : List CString) : CString :=
  ⟨joined (names.map CString.bytes), by
    intro zero
    rcases mem_joined zero with isSlash | ⟨part, member, inPart⟩
    · cases isSlash
    · obtain ⟨name, _, rfl⟩ := List.mem_map.mp member
      exact name.noNul inPart⟩

theorem cstring_ext {first second : CString}
    (same : first.bytes = second.bytes) : first = second := by
  cases first
  cases second
  cases same
  rfl

theorem joinedPath_nil : joinedPath [] = rootPath := rfl

theorem tokens_bytes (path : CString) :
    (tokens path).map CString.bytes = pieces path.bytes := by
  rw [tokens, List.map_pmap]
  exact List.pmap_eq_self.mpr fun _ _ => rfl

theorem piece_of_mem_tokens {path name : CString}
    (member : name ∈ tokens path) : Piece name.bytes := by
  apply piece_of_mem_pieces
  rw [← tokens_bytes]
  exact List.mem_map_of_mem member

/-- The server's way of joining adds one name to a joined path. -/
theorem joinPath_joinedPath {before : List CString} {name : CString}
    (arePieces : ∀ other ∈ before, Piece other.bytes)
    (isPiece : Piece name.bytes) :
    joinPath (joinedPath before) name = joinedPath (before ++ [name]) := by
  apply cstring_ext
  rw [joinPath]
  by_cases atRoot : before = []
  · subst atRoot
    have slashAtEnd : (joinedPath []).bytes.getLast? = some 47 := rfl
    rw [if_pos (Or.inl slashAtEnd)]
    simp [joinedPath, joined, slash]
  · have nonempty : before.map CString.bytes ≠ [] := by
      rw [Ne, List.map_eq_nil_iff]
      exact atRoot
    have noSlashAtEnd : (joinedPath before).bytes.getLast? ≠ some 47 := by
      apply getLast?_joined_ne_slash nonempty
      intro part member
      obtain ⟨other, inBefore, rfl⟩ := List.mem_map.mp member
      exact arePieces other inBefore
    have noSlashAtStart : name.bytes.head? ≠ some 47 := by
      intro head
      exact isPiece.2 (List.mem_of_mem_head? head)
    rw [if_neg (not_or.mpr ⟨noSlashAtEnd, noSlashAtStart⟩)]
    have oneMore := joined_concat nonempty name.bytes
    rw [← List.map_singleton, ← List.map_append] at oneMore
    exact oneMore.symm

theorem joinedPath_nonempty (names : List CString) :
    (joinedPath names).bytes ≠ [] := by
  cases names with
  | nil => exact List.cons_ne_nil _ _
  | cons name rest => exact List.cons_ne_nil _ _

/-! ## A tree that stands still -/

/-- What `stat` says of each path does not change while it is only asked:
nothing, or whether it leads to a directory. -/
structure Standing (kernel : Kernel Fs) (fs : Fs)
    (leads : CString → Option Bool) : Prop where
  stat : ∀ after, Quiet kernel fs after → ∀ path,
    ((kernel (.stat path) after).1.toOption.map fun st => sIsdir st.mode) =
      leads path
  root : leads rootPath = some true

theorem Standing.found {env : Env Fs} {fs : Fs}
    {leads : CString → Option Bool} (standing : Standing env.kernel fs leads)
    {server : Server Fs} (quiet : Quiet env.kernel fs server.fs)
    {path : CString} {isDir : Bool} (lead : leads path = some isDir) :
    ∃ st next, syscall env (.stat path) server = (.ok st, next) ∧
      sIsdir st.mode = isDir := by
  have asked := standing.stat server.fs quiet path
  cases outcome : (env.kernel (.stat path) server.fs).1 with
  | error errno =>
      rw [outcome, lead] at asked
      cases asked
  | ok st =>
      rw [outcome, lead] at asked
      refine ⟨st, (syscall env (.stat path) server).2, ?_, Option.some.inj asked⟩
      rw [← outcome]
      rfl

theorem Standing.missing {env : Env Fs} {fs : Fs}
    {leads : CString → Option Bool} (standing : Standing env.kernel fs leads)
    {server : Server Fs} (quiet : Quiet env.kernel fs server.fs)
    {path : CString} (lead : leads path = none) :
    ∃ errno next, syscall env (.stat path) server = (.error errno, next) := by
  have asked := standing.stat server.fs quiet path
  cases outcome : (env.kernel (.stat path) server.fs).1 with
  | ok st =>
      rw [outcome, lead] at asked
      cases asked
  | error errno =>
      refine ⟨errno, (syscall env (.stat path) server).2, ?_⟩
      rw [← outcome]
      rfl

/-- Whether a path leads to a directory of the tree, if it leads anywhere. -/
def leadsTo (files : Files) (path : CString) : Option Bool :=
  match resolvePath files path with
  | .ok place => some (files.isDirAt place)
  | .error _ => none

theorem leadsTo_rootPath (files : Files) : leadsTo files rootPath = some true := by
  have resolved : resolvePath files rootPath = .ok [] := by
    rw [resolvePath, if_neg (by decide)]
    exact DirTree.walk_cons_ok.mpr ⟨files.isDirAt_root, by simp, rfl⟩
  rw [leadsTo, resolved]
  exact congrArg some files.isDirAt_root

/-- A kernel on a tree stands still while it is only asked. -/
theorem OnTree.standing {kernel : Kernel Fs} {files : Fs → Files}
    (onTree : OnTree kernel files) (fs : Fs) :
    Standing kernel fs (leadsTo (files fs)) where
  stat := by
    intro after quiet path
    rw [← quiet.served_eq onTree.undisturbed, leadsTo]
    cases outcome : (kernel (.stat path) after).1 with
    | ok st =>
        obtain ⟨place, resolved, isDir⟩ := onTree.stat_ok path after st outcome
        rw [resolved]
        exact congrArg some isDir
    | error errno =>
        cases resolved : resolvePath (files after) path with
        | error reason => rfl
        | ok place =>
            obtain ⟨st, found⟩ := onTree.stat_resolved path after place resolved
            rw [outcome] at found
            cases found
  root := leadsTo_rootPath (files fs)

/-! ## One request -/

/-- The server's side of one step: the piece is found, or the walk ends. -/
inductive Asked (env : Env Fs) (fs : Fs) (leads : CString → Option Bool)
    (message : Bytes) (dirPath filePath : CString) (server : Server Fs)
    (pairs : CString ≃. Fhandle) : Prop
  | found (handle : Fhandle) (attributes : Fattr) (next : Server Fs)
      (more : CString ≃. Fhandle)
      (directory : leads dirPath = some true) (exist : leads filePath ≠ none)
      (replied : sendRequest env .lookup message server =
        .ok (some (.lookup handle attributes), next))
      (quiet : Quiet env.kernel fs next.fs) (fresh : Fresh next more)
      (gains : Gains pairs more filePath handle)
      (drawn : pairs filePath = some handle ∧ next.draws = server.draws ∨
        pairs filePath = none ∧ server.draws = handle :: next.draws)
  | ended (next : Server Fs)
      (misses : leads dirPath = some true → leads filePath = none)
      (replied : sendRequest env .lookup message server = .ok (none, next))
      (quiet : Quiet env.kernel fs next.fs) (fresh : Fresh next pairs)
      (undrawn : next.draws = server.draws)

theorem asked_of_refused {env : Env Fs} {fs : Fs}
    {leads : CString → Option Bool} {message : Bytes}
    {dirPath filePath : CString} {server next : Server Fs}
    {pairs : CString ≃. Fhandle} (fresh : Fresh server pairs)
    (quiet : Quiet env.kernel fs server.fs)
    (misses : leads dirPath = some true → leads filePath = none)
    (handled : serve env message server = .ok next)
    (refused : Refused env server next) :
    Asked env fs leads message dirPath filePath server pairs := by
  obtain ⟨error, sent⟩ := refused.reply
  exact .ended next misses (sendRequest_of_error handled sent)
    (quiet.trans refused.quiet) (fresh.of_same refused.db refused.draws)
    refused.draws

theorem lookup_step (env : Env Fs) {fs : Fs} {leads : CString → Option Bool}
    (standing : Standing env.kernel fs leads) {server : Server Fs}
    {pairs : CString ≃. Fhandle} (fresh : Fresh server pairs)
    (quiet : Quiet env.kernel fs server.fs) {dirPath filename : CString}
    {dir : Fhandle} (pair : pairs dirPath = some dir)
    (nonempty : dirPath.bytes ≠ [])
    (short : filename.bytes.length ≤ snfsMaxFilenameLength)
    (supply : pairs (joinPath dirPath filename) = none → server.draws ≠ [])
    (following : Nat → UInt8) :
    Asked env fs leads (lookupMessage dir filename following) dirPath
      (joinPath dirPath filename) server pairs := by
  have served := serve_lookupMessage env dir filename following server
  rw [sent_of_short short] at served
  simp only [handleLookup, ok_bind, fresh.getFile_of_pair pair, asString,
    stringAt_key] at served
  have start := Looked.refl env server
  cases dirLead : leads dirPath with
  | none =>
      obtain ⟨errno, next, called⟩ := standing.missing quiet dirLead
      simp only [called] at served
      refine asked_of_refused fresh quiet ?_ served
        ((start.failed called).refused _)
      intro directory
      rw [dirLead] at directory
      cases directory
  | some isDir =>
      obtain ⟨st1, middle, called, mode⟩ := standing.found quiet dirLead
      simp only [called, mode] at served
      have looked := start.readOnly called rfl
      cases isDir with
      | false =>
          refine asked_of_refused fresh quiet ?_ served (looked.refused .enotdir)
          intro directory
          rw [dirLead] at directory
          cases directory
      | true =>
          have middleQuiet := quiet.trans looked.quiet
          simp only [if_neg nonempty] at served
          cases fileLead : leads (joinPath dirPath filename) with
          | none =>
              obtain ⟨errno, next, missed⟩ :=
                standing.missing middleQuiet fileLead
              simp only [missed] at served
              exact asked_of_refused fresh quiet (fun _ => fileLead) served
                ((looked.failed missed).refused _)
          | some fileIsDir =>
              obtain ⟨st2, last, seen, _⟩ := standing.found middleQuiet fileLead
              have lookedAll := looked.readOnly seen rfl
              have freshLast := fresh.of_same lookedAll.db lookedAll.draws
              rw [← lookedAll.draws] at supply
              obtain ⟨handle, after, inserted⟩ :=
                freshLast.findOrInsert_ok env _ supply
              simp only [seen, inserted] at served
              obtain ⟨called, sameFs, sent⟩ := findOrInsert_eq_ok inserted
              rw [lookedAll.db, lookedAll.draws] at called
              obtain ⟨more, freshAfter, gains, drawn⟩ :=
                fresh.called after called
              have sentReply : (sendReply
                  (.lookup handle (statToFattr st2 Fattr.zero))
                  (snfsRepSize sizeofLookupRep) after).sent =
                  (.lookup handle (statToFattr st2 Fattr.zero),
                    snfsRepSize sizeofLookupRep) :: server.sent := by
                rw [sendReply, sent, lookedAll.sent]
              have lastQuiet : Quiet env.kernel fs after.fs := by
                rw [sameFs]
                exact quiet.trans lookedAll.quiet
              exact .found handle (statToFattr st2 Fattr.zero) _ more dirLead
                (by simp [fileLead])
                (sendRequest_of_reply .lookup served sentReply rfl (by simp))
                lastQuiet (freshAfter.of_same rfl rfl) gains drawn

/-! ## The whole walk -/

/-- Every entry of the rest is found, each in a directory. -/
def Reaches (leads : CString → Option Bool) :
    List CString → List CString → Prop
  | _, [] => True
  | before, name :: rest =>
      leads (joinedPath before) = some true ∧
        leads (joinedPath (before ++ [name])) ≠ none ∧
        Reaches leads (before ++ [name]) rest

/-- How many names are still to be given a handle on the way. -/
def unnamed (pairs : CString ≃. Fhandle) : List CString → List CString → Nat
  | _, [] => 0
  | before, name :: rest =>
      (if pairs (joinedPath (before ++ [name])) = none then 1 else 0) +
        unnamed pairs (before ++ [name]) rest

theorem unnamed_le_length (pairs : CString ≃. Fhandle)
    (before rest : List CString) : unnamed pairs before rest ≤ rest.length := by
  induction rest generalizing before with
  | nil => exact Nat.le_refl 0
  | cons name rest inductionHypothesis =>
      have later := inductionHypothesis (before ++ [name])
      rw [unnamed, List.length_cons]
      split <;> omega

theorem unnamed_mono {pairs more : CString ≃. Fhandle}
    (kept : ∀ other stored, pairs other = some stored →
      more other = some stored) (before rest : List CString) :
    unnamed more before rest ≤ unnamed pairs before rest := by
  induction rest generalizing before with
  | nil => exact Nat.le_refl 0
  | cons name rest inductionHypothesis =>
      have later := inductionHypothesis (before ++ [name])
      rw [unnamed, unnamed]
      cases pair : pairs (joinedPath (before ++ [name])) with
      | none =>
          rw [if_pos rfl]
          split <;> omega
      | some handle =>
          rw [kept _ _ pair]
          simpa using later

/-- What a walk leaves behind. -/
structure Walked (kernel : Kernel Fs) (fs : Fs) (leads : CString → Option Bool)
    (before rest : List CString) (pairs more : CString ≃. Fhandle)
    (result : Option Fhandle) (server next : Server Fs) : Prop where
  quiet : Quiet kernel fs next.fs
  fresh : Fresh next more
  drawn : server.draws.length ≤ next.draws.length + rest.length
  kept : ∀ other stored, pairs other = some stored → more other = some stored
  added : ∀ other stored, more other = some stored →
    pairs other = some stored ∨ leads other ≠ none ∧
      ∃ first last, rest = first ++ last ∧ other = joinedPath (before ++ first)
  reached : ∀ handle, result = some handle → Reaches leads before rest ∧
    more (joinedPath (before ++ rest)) = some handle ∧
    unnamed more before rest = 0
  missed : result = none → ¬ Reaches leads before rest

/-- The induction over the pieces: the handle at hand leads to the pieces
before, and there are draws for those that come. -/
theorem lookupFrom_walk {link : Link Fs} {fs : Fs}
    {leads : CString → Option Bool} (standing : Standing link.kernel fs leads)
    (request : Nat) {before rest : List CString} {curHandle : Fhandle}
    {server : Server Fs} {pairs : CString ≃. Fhandle}
    (fresh : Fresh server pairs) (quiet : Quiet link.kernel fs server.fs)
    (pair : pairs (joinedPath before) = some curHandle)
    (beforePieces : ∀ name ∈ before, Piece name.bytes)
    (restPieces : ∀ name ∈ rest, Piece name.bytes)
    (short : ∀ name ∈ rest, name.bytes.length ≤ snfsMaxFilenameLength)
    (supply : unnamed pairs before rest ≤ server.draws.length) :
    ∃ result next more,
      lookupFrom link request rest curHandle server = .ok (result, next) ∧
      Walked link.kernel fs leads before rest pairs more result server next := by
  induction rest generalizing request before curHandle server pairs with
  | nil =>
      refine ⟨some curHandle, server, pairs, rfl, quiet, fresh, Nat.le_refl _,
        fun _ _ stored => stored, fun _ _ stored => Or.inl stored, ?_, ?_⟩
      · intro handle same
        cases same
        exact ⟨trivial, by rw [List.append_nil]; exact pair, rfl⟩
      · rintro ⟨⟩
  | cons name rest inductionHypothesis =>
      have isPiece := restPieces name List.mem_cons_self
      have nextPieces : ∀ other ∈ before ++ [name], Piece other.bytes := by
        intro other member
        rcases List.mem_append.mp member with inBefore | isName
        · exact beforePieces other inBefore
        · rw [List.mem_singleton.mp isName]
          exact isPiece
      have step := lookup_step (link.env request) standing fresh quiet pair
        (joinedPath_nonempty before) (short name List.mem_cons_self)
        (by
          rw [joinPath_joinedPath beforePieces isPiece]
          intro unknown empty
          rw [unnamed, if_pos unknown, empty] at supply
          simp at supply)
        (link.following request)
      rw [joinPath_joinedPath beforePieces isPiece] at step
      cases step with
      | ended next misses replied endQuiet endFresh undrawn =>
          refine ⟨none, next, pairs, ?_, endQuiet, endFresh,
            by rw [undrawn]; exact Nat.le_add_right _ _,
            fun _ _ stored => stored, fun _ _ stored => Or.inl stored, ?_, ?_⟩
          · rw [lookupFrom, replied]
            rfl
          · rintro _ ⟨⟩
          · intro _ reaches
            exact reaches.2.1 (misses reaches.1)
      | found handle attributes next more directory exist replied nextQuiet
          nextFresh gains drawn =>
          have monotone := unnamed_mono gains.kept (before ++ [name]) rest
          have nextSupply : unnamed more (before ++ [name]) rest ≤
              next.draws.length := by
            rw [unnamed] at supply
            rcases drawn with ⟨known, same⟩ | ⟨unknown, taken⟩
            · rw [known, if_neg (by simp)] at supply
              rw [same]
              omega
            · rw [unknown, if_pos rfl, taken, List.length_cons] at supply
              omega
          obtain ⟨result, last, final, walked, left⟩ := inductionHypothesis
            (request + 1) nextFresh nextQuiet gains.pair nextPieces
            (fun other member => restPieces other (List.mem_cons_of_mem _ member))
            (fun other member => short other (List.mem_cons_of_mem _ member))
            nextSupply
          refine ⟨result, last, final, ?_, left.quiet, left.fresh, ?_, ?_, ?_, ?_,
            ?_⟩
          · rw [lookupFrom, replied]
            exact walked
          · have later := left.drawn
            rw [List.length_cons]
            rcases drawn with ⟨_, same⟩ | ⟨_, taken⟩
            · rw [same] at later
              omega
            · rw [taken, List.length_cons]
              omega
          · intro other stored known
            exact left.kept other stored (gains.kept other stored known)
          · intro other stored known
            rcases left.added other stored known with
              already | ⟨leadsOn, first, tail, split, same⟩
            · by_cases isNew : other = joinedPath (before ++ [name])
              · refine Or.inr ⟨by rw [isNew]; exact exist, [name], rest, rfl, isNew⟩
              · rw [gains.other other isNew] at already
                exact Or.inl already
            · refine Or.inr ⟨leadsOn, name :: first, tail, by rw [split]; rfl, ?_⟩
              rw [same, List.append_assoc]
              rfl
          · intro final reached
            obtain ⟨reaches, stored, allNamed⟩ := left.reached final reached
            rw [List.append_assoc] at stored
            refine ⟨⟨directory, exist, reaches⟩, stored, ?_⟩
            rw [unnamed, left.kept _ _ gains.pair, if_neg (by simp), allNamed]
          · intro missed reaches
            exact left.missed missed reaches.2.2

/-! ## The call `lookup` -/

/-- The joined path is there, and every proper prefix is a directory. -/
structure Resolves (leads : CString → Option Bool) (names : List CString) :
    Prop where
  exist : leads (joinedPath names) ≠ none
  directories : ∀ first last, names = first ++ last → last ≠ [] →
    leads (joinedPath first) = some true

theorem reaches_iff {leads : CString → Option Bool}
    {before rest : List CString} :
    Reaches leads before rest ↔
      (rest ≠ [] → leads (joinedPath (before ++ rest)) ≠ none) ∧
      ∀ first last, rest = first ++ last → last ≠ [] →
        leads (joinedPath (before ++ first)) = some true := by
  induction rest generalizing before with
  | nil =>
      refine ⟨fun _ => ⟨fun nonempty => absurd rfl nonempty, ?_⟩, fun _ => trivial⟩
      intro first last split nonempty
      exact absurd (List.append_eq_nil_iff.mp split.symm).2 nonempty
  | cons name rest inductionHypothesis =>
      rw [Reaches, inductionHypothesis, List.append_assoc]
      constructor
      · rintro ⟨directory, exist, found, directories⟩
        constructor
        · intro _
          cases rest with
          | nil => exact exist
          | cons other rest => exact found (List.cons_ne_nil _ _)
        · intro first last split nonempty
          cases first with
          | nil =>
              rw [List.append_nil]
              exact directory
          | cons head tail =>
              obtain ⟨rfl, splitTail⟩ := List.cons.inj split
              have later := directories tail last splitTail nonempty
              rw [List.append_assoc] at later
              exact later
      · rintro ⟨found, directories⟩
        have atName := directories [] (name :: rest) rfl (List.cons_ne_nil _ _)
        rw [List.append_nil] at atName
        refine ⟨atName, ?_, fun _ => found (List.cons_ne_nil _ _), ?_⟩
        · cases rest with
          | nil => exact found (List.cons_ne_nil _ _)
          | cons other rest =>
              rw [directories [name] (other :: rest) rfl (List.cons_ne_nil _ _)]
              exact Option.some_ne_none true
        · intro first last split nonempty
          rw [List.append_assoc]
          exact directories (name :: first) last (by rw [split]; rfl) nonempty

theorem resolves_iff_reaches {leads : CString → Option Bool}
    (root : leads rootPath = some true) (names : List CString) :
    Resolves leads names ↔ Reaches leads [] names := by
  rw [reaches_iff]
  constructor
  · rintro ⟨exist, directories⟩
    exact ⟨fun _ => exist, directories⟩
  · rintro ⟨exist, directories⟩
    refine ⟨?_, directories⟩
    by_cases empty : names = []
    · rw [empty, joinedPath_nil, root]
      exact Option.some_ne_none true
    · exact exist empty

/-- Also for `/`, which `lookup` answers by itself. -/
theorem lookup_eq (link : Link Fs) (root : Fhandle) (path : CString)
    (handle : Fhandle) (server : Server Fs) :
    lookup link root path handle server = (do
      match ← lookupFrom link 0 (tokens path) root server with
      | (some curHandle, server) => return ((true, curHandle), server)
      | (none, server) => return ((false, handle), server)) := by
  rw [lookup]
  split
  · rename_i isRoot
    subst isRoot
    rfl
  · rfl

/-- What a call of `lookup` leaves behind. -/
structure LookedUpPath (kernel : Kernel Fs) (fs : Fs)
    (leads : CString → Option Bool) (names : List CString)
    (pairs more : CString ≃. Fhandle) (server next : Server Fs) : Prop where
  quiet : Quiet kernel fs next.fs
  fresh : Fresh next more
  drawn : server.draws.length ≤ next.draws.length + names.length
  kept : ∀ other stored, pairs other = some stored → more other = some stored
  added : ∀ other stored, more other = some stored →
    pairs other = some stored ∨ leads other ≠ none ∧
      ∃ first last, names = first ++ last ∧ other = joinedPath first

theorem lookup_walk {link : Link Fs} {fs : Fs} {leads : CString → Option Bool}
    (standing : Standing link.kernel fs leads) {root : Fhandle}
    {server : Server Fs} {pairs : CString ≃. Fhandle}
    (fresh : Fresh server pairs) (quiet : Quiet link.kernel fs server.fs)
    (rootPair : pairs rootPath = some root) {path : CString}
    (short : ∀ name ∈ tokens path, name.bytes.length ≤ snfsMaxFilenameLength)
    (supply : unnamed pairs [] (tokens path) ≤ server.draws.length)
    (handle : Fhandle) :
    ∃ next more,
      LookedUpPath link.kernel fs leads (tokens path) pairs more server next ∧
      ((Resolves leads (tokens path) ∧ ∃ found,
          lookup link root path handle server = .ok ((true, found), next) ∧
          more (joinedPath (tokens path)) = some found ∧
          unnamed more [] (tokens path) = 0) ∨
        (¬ Resolves leads (tokens path) ∧
          lookup link root path handle server = .ok ((false, handle), next))) := by
  have atRoot : pairs (joinedPath []) = some root := rootPair
  obtain ⟨result, next, more, walked, left⟩ := lookupFrom_walk standing 0 fresh
    quiet atRoot (by simp) (fun name member => piece_of_mem_tokens member) short
    supply
  refine ⟨next, more,
    ⟨left.quiet, left.fresh, left.drawn, left.kept, left.added⟩, ?_⟩
  rw [resolves_iff_reaches standing.root, lookup_eq, walked]
  cases result with
  | some found =>
      obtain ⟨reaches, stored, allNamed⟩ := left.reached found rfl
      exact Or.inl ⟨reaches, found, rfl, stored, allNamed⟩
  | none => exact Or.inr ⟨left.missed rfl, rfl⟩

/-- `server_mount` gives the handle of `/`. -/
theorem serverMount_root {env : Env Fs} {server mounted : Server Fs}
    {root : Fhandle} {pairs : CString ≃. Fhandle} (fresh : Fresh server pairs)
    (mount : serverMount env server = .ok (some root, mounted)) :
    ∃ more, Fresh mounted more ∧ more rootPath = some root := by
  rw [serverMount, bind_eq_ok] at mount
  obtain ⟨⟨reply, next⟩, replied, mount⟩ := mount
  rw [sendRequest, bind_eq_ok] at replied
  obtain ⟨after, handled, replied⟩ := replied
  rw [serve_mountMessage] at handled
  obtain ⟨given, named, _, sent⟩ := handleMount_named handled
  obtain ⟨more, freshAfter, gains, _⟩ := fresh.called after named.inserted
  rw [sent] at replied
  cases replied
  cases mount
  exact ⟨more, freshAfter, gains.pair⟩

/-- Nothing is new in the database but pairs for these names. -/
def OnlyAdds (db next : Db) (allowed : CString → Prop) : Prop :=
  ∀ key, next key = db key ∨ db key = none ∧ ∃ name handle, allowed name ∧
    ((key = CString.key name ∧ next key = some (handleBytes handle)) ∨
      (key = handleBytes handle ∧ next key = some name.key))

theorem onlyAdds_of_pairs {server next : Server Fs}
    {pairs more : CString ≃. Fhandle} {allowed : CString → Prop}
    (fresh : Fresh server pairs) (freshNext : Fresh next more)
    (kept : ∀ other stored, pairs other = some stored →
      more other = some stored)
    (added : ∀ other stored, more other = some stored →
      pairs other = some stored ∨ allowed other) :
    OnlyAdds server.db next.db allowed := by
  intro key
  cases known : server.db key with
  | some value =>
      obtain ⟨name, handle, pair, directions⟩ :=
        (fresh.holds.exact key value).mp known
      exact Or.inl ((freshNext.holds.exact key value).mpr
        ⟨name, handle, kept name handle pair, directions⟩)
  | none =>
      cases later : next.db key with
      | none => exact Or.inl rfl
      | some value =>
          obtain ⟨name, handle, pair, directions⟩ :=
            (freshNext.holds.exact key value).mp later
          rcases added name handle pair with already | isAllowed
          · have before := (fresh.holds.exact key value).mpr
              ⟨name, handle, already, directions⟩
            rw [known] at before
            cases before
          · refine Or.inr ⟨rfl, name, handle, isAllowed, ?_⟩
            rcases directions with ⟨rfl, rfl⟩ | ⟨rfl, rfl⟩
            · exact Or.inr ⟨rfl, rfl⟩
            · exact Or.inl ⟨rfl, rfl⟩

/-- In any state a server comes to, with a root handle from `server_mount`:
`lookup` succeeds exactly on the paths that resolve through directories, with a
handle that leads to the joined path and that every further `lookup` of the
same pieces gives; it leaves `*handle` alone when it fails; and it adds only
names of existing prefixes. -/
theorem lookup_walks_path (link : Link Fs) (fs : Fs) (draws : List Fhandle)
    (nodup : draws.Nodup) (apart : ∀ draw ∈ draws, SpellsNoName draw)
    (events : List (Event Fs)) (server : Server Fs)
    (run : runLabels (step link.kernel) (started fs draws) events = some server)
    (memory : Leftover) (root : Fhandle) (mounted : Server Fs)
    (mount : serverMount ⟨link.kernel, memory⟩ server = .ok (some root, mounted))
    (leads : CString → Option Bool)
    (standing : Standing link.kernel mounted.fs leads) (path : CString)
    (short : ∀ name ∈ tokens path, name.bytes.length ≤ snfsMaxFilenameLength)
    (enough : (tokens path).length ≤ mounted.draws.length) (handle : Fhandle) :
    ∃ found result next,
      lookup link root path handle mounted = .ok ((found, result), next) ∧
      (found = true ↔ Resolves leads (tokens path)) ∧
      (found = true →
        getFile next.db result = some (joinedPath (tokens path)).key ∧
        ∀ (again : Link Fs) spelling other, again.kernel = link.kernel →
          tokens spelling = tokens path → ∃ last,
            lookup again root spelling other next = .ok ((true, result), last)) ∧
      (found = false → result = handle) ∧
      OnlyAdds mounted.db next.db (fun name => leads name ≠ none ∧
        ∃ first last, tokens path = first ++ last ∧ name = joinedPath first) := by
  obtain ⟨before, freshBefore⟩ := run_fresh nodup apart run
  obtain ⟨pairs, fresh, rootPair⟩ := serverMount_root freshBefore mount
  have supply := (unnamed_le_length pairs [] (tokens path)).trans enough
  obtain ⟨next, more, left, outcome⟩ := lookup_walk standing fresh (.refl _)
    rootPair short supply handle
  have adds := onlyAdds_of_pairs fresh left.fresh left.kept left.added
  rcases outcome with
    ⟨resolves, result, called, stored, allNamed⟩ | ⟨misses, called⟩
  · refine ⟨true, result, next, called, by simp [resolves], ?_, by simp, adds⟩
    intro _
    refine ⟨left.fresh.getFile_of_pair stored, ?_⟩
    intro again spelling other sameKernel samePieces
    have standingAgain : Standing again.kernel mounted.fs leads := by
      rw [sameKernel]
      exact standing
    have quietAgain : Quiet again.kernel mounted.fs next.fs := by
      rw [sameKernel]
      exact left.quiet
    have shortAgain : ∀ name ∈ tokens spelling,
        name.bytes.length ≤ snfsMaxFilenameLength := by
      rw [samePieces]
      exact short
    have supplyAgain : unnamed more [] (tokens spelling) ≤ next.draws.length := by
      rw [samePieces, allNamed]
      exact Nat.zero_le _
    obtain ⟨last, final, leftAgain, outcomeAgain⟩ := lookup_walk standingAgain
      left.fresh quietAgain (left.kept _ _ rootPair) shortAgain supplyAgain other
    rw [samePieces] at outcomeAgain leftAgain
    rcases outcomeAgain with ⟨_, same, calledAgain, storedAgain, _⟩ | ⟨misses, _⟩
    · rw [leftAgain.kept _ _ stored] at storedAgain
      cases storedAgain
      exact ⟨last, calledAgain⟩
    · exact absurd resolves misses
  · exact ⟨false, handle, next, called, by simp [misses], by simp, fun _ => rfl,
      adds⟩

/-! A directory with the file `/a` in it, looked up as `//a/`. -/

theorem letterA_noNul : (0 : UInt8) ∉ [(97 : UInt8)] := by decide

def nameA : CString := ⟨[97], letterA_noNul⟩

def slashedA : CString := ⟨[47, 47, 97, 47], by decide⟩

def quietLink : Link Files :=
  ⟨treeKernel, fun _ => ⟨0, Fattr.zero, fun _ _ => 0, 0x800000⟩, fun _ _ => 0⟩

theorem tokens_slashedA : tokens slashedA = [nameA] := rfl

theorem lookup_walks_path_slashedA :
    ∃ result next,
      lookup quietLink 7 slashedA 0 ⟨onlyFileA, paired emptyDb rootPath 7, [9],
        [(.mount 7, 12)], []⟩ = .ok ((true, result), next) ∧
      getFile next.db result = some [47, 97, 0] := by
  have apart : ∀ draw ∈ [(7 : Fhandle), 9], SpellsNoName draw := by
    intro draw member
    apply spellsNoName_of_zero
    rcases List.mem_pair.mp member with rfl | rfl
    · decide
    · decide
  have short : ∀ name ∈ tokens slashedA,
      name.bytes.length ≤ snfsMaxFilenameLength := by
    rw [tokens_slashedA]
    decide
  obtain ⟨found, result, next, called, iff, onFound, _⟩ := lookup_walks_path
    quietLink onlyFileA [7, 9] (by decide) apart [] _ rfl (quietLink.leftover 0)
    7 _ rfl _ (OnTree.standing treeKernel_onTree _) slashedA short (by decide) 0
  have resolves : Resolves (leadsTo onlyFileA) (tokens slashedA) := by
    rw [tokens_slashedA]
    refine ⟨by decide, ?_⟩
    intro first last split nonempty
    cases first with
    | nil => rfl
    | cons head tail =>
        have empty := (List.cons.inj split).2
        exact absurd (List.append_eq_nil_iff.mp empty.symm).2 nonempty
  rw [iff.mpr resolves] at called
  exact ⟨result, next, called, (onFound (iff.mpr resolves)).1⟩

end ChlorosSnfs.Snfs.PathWalk
