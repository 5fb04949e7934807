import ChlorosSnfs.Snfs.ClientCalls

/-!
# The file a call finds

A call with a path asks `lookup` for a handle and then speaks of the file this
handle stands for.  On a mounted server with fresh draws this is the file at the
joined path.
-/

set_option autoImplicit false

namespace ChlorosSnfs.Snfs.FoundPaths

open ChlorosSnfs.Snfs.Fhandledb
open ChlorosSnfs.Snfs.Messages
open ChlorosSnfs.Snfs.Syscalls
open ChlorosSnfs.Snfs.Handlers
open ChlorosSnfs.Snfs.HandlerEffects
open ChlorosSnfs.Snfs.Client
open ChlorosSnfs.Snfs.FreshDraws
open ChlorosSnfs.Snfs.PathWalk
open ChlorosSnfs.Snfs.ClientCalls

variable {Fs : Type} {link : Link Fs} {root handle : Fhandle} {path : CString}
  {server found : Server Fs}

/-- `lookup` gives a handle that stands for this file. -/
structure Finds (link : Link Fs) (root : Fhandle) (path : CString)
    (server found : Server Fs) (handle : Fhandle) (filePath : CString) : Prop where
  called : lookup link root path 0 server = .ok ((true, handle), found)
  stored : storedPath found.db handle = some filePath

/-- What `lookup` walks on: a tree that stands still, a mounted server with fresh
draws, enough of them, and names that fit. -/
structure Walkable (link : Link Fs) (root : Fhandle) (path : CString)
    (server : Server Fs) : Prop where
  standing : ∃ leads, Standing link.kernel server.fs leads
  mounted : ∃ pairs, Fresh server pairs ∧ pairs rootPath = some root
  short : ∀ name ∈ tokens path, name.bytes.length ≤ snfsMaxFilenameLength
  supply : (tokens path).length ≤ server.draws.length

/-- The file found is the one at the joined path. -/
theorem Finds.eq_joinedPath {filePath : CString}
    (finds : Finds link root path server found handle filePath)
    (walkable : Walkable link root path server) :
    filePath = joinedPath (tokens path) := by
  obtain ⟨leads, standing⟩ := walkable.standing
  obtain ⟨pairs, fresh, rootPair⟩ := walkable.mounted
  obtain ⟨next, more, walked, outcome⟩ := lookup_walk standing fresh (.refl _)
    rootPair walkable.short ((unnamed_le_length _ _ _).trans walkable.supply) 0
  rcases outcome with ⟨_, given, called, pair, _⟩ | ⟨_, missed⟩
  · cases called.symm.trans finds.called
    have stored := walked.fresh.storedPath_of_pair pair
    rw [finds.stored] at stored
    exact Option.some.inj stored
  · cases missed.symm.trans finds.called

/-! ## Looking -/

theorem handleLookup_quiet {env : Env Fs} {args : LookupArgs}
    {server after : Server Fs}
    (handled : handleLookup env args server = .ok after) :
    Quiet env.kernel server.fs after.fs := by
  cases handleLookup_ends handled with
  | missing missing => exact missing.refused.quiet
  | notThere isDirectory _ called =>
      exact (isDirectory.looked.failed called).quiet
  | given isDirectory _ _ stats inserted =>
      obtain ⟨_, fs, _⟩ := findOrInsert_eq_ok inserted
      rw [sendReply, fs]
      exact (isDirectory.looked.readOnly stats rfl).quiet

theorem lookupFrom_quiet {request : Nat} {names : List CString}
    {curHandle : Fhandle} {result : Option Fhandle}
    (called : lookupFrom link request names curHandle server =
      .ok (result, found)) : Quiet link.kernel server.fs found.fs := by
  induction names generalizing request curHandle server with
  | nil =>
      cases called
      exact .refl _
  | cons name rest inductionHypothesis =>
      rw [lookupFrom, bind_eq_ok] at called
      obtain ⟨⟨reply, next⟩, replied, called⟩ := called
      have handled := serve_of_sendRequest replied
      rw [serve_lookupMessage] at handled
      have step := handleLookup_quiet handled
      split at called
      · rename_i same
        cases same
        exact step.trans (inductionHypothesis called)
      · rename_i same
        cases same
        cases called
        exact step

theorem lookup_quiet {result : Bool × Fhandle}
    (called : lookup link root path handle server = .ok (result, found)) :
    Quiet link.kernel server.fs found.fs := by
  rw [lookup_eq, bind_eq_ok] at called
  obtain ⟨⟨given, next⟩, walked, called⟩ := called
  have quiet := lookupFrom_quiet walked
  cases given with
  | none =>
      cases called
      exact quiet
  | some given =>
      cases called
      exact quiet

end ChlorosSnfs.Snfs.FoundPaths
