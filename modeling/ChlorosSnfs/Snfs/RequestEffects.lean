import ChlorosSnfs.Snfs.ClientCalls
import ChlorosSnfs.Snfs.GivenHandles
import ChlorosSnfs.Snfs.RoundTrip
import ChlorosSnfs.Snfs.FoundPaths

/-!
# What each request of a client does to the tree

The client sends a handle that was given for a path, and the server may since have
forgotten it.  When a reply comes back, the request has done what it asks for at
this path; when none does, the tree is as it was.
-/

set_option autoImplicit false

namespace ChlorosSnfs.Snfs.RequestEffects

open ChlorosSnfs.Library
open ChlorosSnfs.Library.FileTree
open ChlorosSnfs.Snfs.Fhandledb
open ChlorosSnfs.Snfs.Messages
open ChlorosSnfs.Snfs.Syscalls
open ChlorosSnfs.Snfs.Handlers
open ChlorosSnfs.Snfs.ServeLoop
open ChlorosSnfs.Snfs.HandlerEffects
open ChlorosSnfs.Snfs.Client
open ChlorosSnfs.Snfs.Wire
open ChlorosSnfs.Snfs.RoundTrip
open ChlorosSnfs.Snfs.FreshDraws
open ChlorosSnfs.Snfs.TreeKernel
open ChlorosSnfs.Snfs.PathWalk
open ChlorosSnfs.Snfs.ClientCalls
open ChlorosSnfs.Snfs.FoundPaths
open ChlorosSnfs.Snfs.GivenHandles

variable {Fs : Type} {env : Env Fs} {files : Fs → Files} {server after : Server Fs}

/-! ## Replies -/

/-- A reply of the type asked for comes back. -/
theorem reply_of_sent {type : MsgType} {message : Bytes} {reply : Option Reply}
    (replied : sendRequest env type message server = .ok (reply, after))
    {given : Reply} {size : Nat}
    (sent : after.sent = (given, size) :: server.sent)
    (named : Reply.type given = type) (notError : type ≠ .error) :
    reply = some given := by
  have handled := serve_of_sendRequest replied
  have again := sendRequest_of_reply type handled sent named notError
  rw [replied] at again
  cases again
  rfl

/-- The reply that comes back is the one that was sent. -/
theorem sent_of_reply {type : MsgType} {message : Bytes} {reply given : Reply}
    (replied : sendRequest env type message server = .ok (some reply, after))
    {size : Nat} (sent : after.sent = (given, size) :: server.sent) :
    reply = given := by
  obtain ⟨_, ⟨_, _, alsoSent⟩, _⟩ := sendRequest_eq_some replied
  rw [sent] at alsoSent
  exact (Prod.mk.inj (List.cons.inj alsoSent).1).1.symm

theorem not_refused_of_replied {type : MsgType} {message : Bytes} {reply : Reply}
    (replied : sendRequest env type message server = .ok (some reply, after)) :
    ¬ Refused env server after := by
  obtain ⟨_, ⟨_, _, sent⟩, notError⟩ := sendRequest_eq_some replied
  exact not_refused_of_reply sent notError

/-! ## Looking -/

theorem leadsTo_of_stat (onTree : OnTree env.kernel files) {path : CString}
    {st : Stat} {fs later : Fs}
    (called : env.kernel (.stat path) fs = (.ok st, later)) :
    leadsTo (files fs) path = some (sIsdir st.mode) := by
  obtain ⟨place, resolved, isDir⟩ := onTree.stat_ok path fs st (by rw [called])
  rw [leadsTo, resolved, isDir]

theorem leadsTo_of_fileFound (onTree : OnTree env.kernel files)
    {fh : Argument Fhandle} {found : Server Fs} {path : CString} {st : Stat}
    (isFound : FileFound env fh server found path st) :
    leadsTo (files server.fs) path = some (sIsdir st.mode) :=
  leadsTo_of_stat onTree (kernel_of_syscall isFound.stats)

/-- A request whose handler only looked. -/
theorem files_of_observed (onTree : OnTree env.kernel files)
    (either : Refused env server after ∨ Observed env server after) :
    files after.fs = files server.fs := by
  rcases either with refused | observed
  · exact refused.quiet.served_eq onTree.undisturbed
  · exact observed.quiet.served_eq onTree.undisturbed

theorem stored_of_stands {handle : Fhandle} {path name : CString}
    (stands : StandsFor server handle path)
    (stored : ∃ fh, (Except.ok handle : Argument Fhandle) = .ok fh ∧
      storedPath server.db fh = some name) : name = path := by
  obtain ⟨fh, same, isStored⟩ := stored
  cases same
  exact stands.stored name isStored

/-! ## The requests -/

section Requests

variable {handle : Fhandle} {path : CString}

/-- LOOKUP of a name in a directory. -/
theorem lookup_effect (onTree : OnTree env.kernel files)
    (fresh : ∃ pairs, Fresh server pairs) (stands : StandsFor server handle path)
    {name : CString} {following : Nat → UInt8} {reply : Option Reply}
    (replied : sendRequest env .lookup (lookupMessage handle name following) server =
      .ok (reply, after)) :
    files after.fs = files server.fs ∧ ∀ given attributes,
      reply = some (.lookup given attributes) →
        StandsFor after given (joinPath path (CString.sent name)) ∧
        leadsTo (files server.fs) (joinPath path (CString.sent name)) ≠ none := by
  have handled := serve_of_sendRequest replied
  rw [serve_lookupMessage] at handled
  have same : files after.fs = files server.fs :=
    (handleLookup_quiet handled).served_eq onTree.undisturbed
  refine ⟨same, ?_⟩
  rintro given attributes rfl
  rcases handleLookup_cases handled with refused | ⟨dirPath, filename, other, found⟩
  · exact absurd refused (not_refused_of_replied replied)
  · have filenameRead := found.filenameRead
    cases filenameRead
    have isPath := stored_of_stands stands found.stored
    subst isPath
    obtain ⟨st1, fs1, st2, first, _, second, sent⟩ := found.found
    have sameReply := sent_of_reply replied sent
    cases sameReply
    obtain ⟨pairs, fresh⟩ := fresh
    obtain ⟨more, succeeds, gains⟩ :=
      succeeds_of_called fresh after found.named.inserted
    refine ⟨standsFor_of_pair succeeds.fresh gains.pair, ?_⟩
    have looked := onTree.undisturbed.readOnly (.stat dirPath) server.fs rfl
    rw [first] at looked
    rw [← looked, leadsTo_of_stat onTree second]
    exact Option.some_ne_none _

/-- A request built as a structure reaches the handler of its type. -/
theorem dispatch_of_sent {request : Request} {gap : Nat → UInt8} {rest : Bytes}
    {type : MsgType} {reply : Option Reply}
    (replied : sendRequest env type (request.sent gap rest) server =
      .ok (reply, after)) :
    dispatch env (request.sent gap rest) server request.type = .ok after := by
  have handled := serve_of_sendRequest replied
  rw [serve_of_messageType (Request.messageType_sent gap rest request)] at handled
  exact handled

theorem getattr_effect (onTree : OnTree env.kernel files)
    (stands : StandsFor server handle path) {gap : Nat → UInt8} {rest : Bytes}
    {reply : Option Reply}
    (replied : sendRequest env .getattr
      ((Request.getattr handle).sent gap rest) server = .ok (reply, after)) :
    files after.fs = files server.fs ∧ ∀ attributes,
      reply = some (.getattr attributes) → ∃ st,
        leadsTo (files server.fs) path = some (sIsdir st.mode) ∧
        attributes = statToFattr st env.leftover.fattr := by
  have handled := dispatch_of_sent replied
  have args : getattrArgs ((Request.getattr handle).sent gap rest) = ⟨.ok handle⟩ :=
    Request.receivedIn_sent gap rest (.getattr handle)
  have handled : handleGetattr env ⟨.ok handle⟩ server = .ok after := by
    rw [← args]
    exact handled
  refine ⟨files_of_observed onTree (handleGetattr_observed handled), ?_⟩
  rintro attributes rfl
  rcases file_cases handled with missing | ⟨name, st, found, isFound, ended⟩
  · exact absurd missing.refused (not_refused_of_replied replied)
  · have isPath := stored_of_stands stands isFound.stored
    subst isPath
    refine ⟨st, leadsTo_of_fileFound onTree isFound, ?_⟩
    cases pure_eq_ok.mp ended
    have sent : (sendReply (.getattr (statToFattr st env.leftover.fattr))
        (snfsRepSize sizeofGetattrRep) found).sent =
        (.getattr (statToFattr st env.leftover.fattr), snfsRepSize sizeofGetattrRep)
          :: server.sent := by
      rw [sendReply, isFound.looked.sent]
    have same := sent_of_reply replied sent
    cases same
    rfl

theorem readdir_effect (onTree : OnTree env.kernel files)
    (stands : StandsFor server handle path) {count : UInt64} {gap : Nat → UInt8}
    {rest : Bytes} {reply : Option Reply}
    (replied : sendRequest env .readdir
      ((Request.readdir handle count).sent gap rest) server = .ok (reply, after)) :
    files after.fs = files server.fs ∧
      (reply ≠ none → leadsTo (files server.fs) path = some true) := by
  have handled := dispatch_of_sent replied
  have args : readdirArgs ((Request.readdir handle count).sent gap rest) =
      ⟨.ok handle, .ok count⟩ :=
    Request.receivedIn_sent gap rest (.readdir handle count)
  have handled : handleReaddir env ⟨.ok handle, .ok count⟩ server = .ok after := by
    rw [← args]
    exact handled
  refine ⟨files_of_observed onTree (handleReaddir_observed handled), ?_⟩
  intro given
  obtain ⟨sent, rfl⟩ := Option.ne_none_iff_exists'.mp given
  have answered := not_refused_of_replied replied
  rcases directory_cases handled with missing | ⟨dirPath, found, isDirectory, _⟩
  · exact absurd missing.refused answered
  · obtain ⟨st, isFound, directory⟩ := isDirectory.isFound
    have isPath := stored_of_stands stands isFound.stored
    subst isPath
    rw [leadsTo_of_fileFound onTree isFound, directory]

theorem setattr_effect (onTree : OnTree env.kernel files)
    (stands : StandsFor server handle path) {which mode uid gid : UInt64}
    {size : Int64} {atime mtime : SnfsTimeval} {gap : Nat → UInt8} {rest : Bytes}
    {reply : Option Reply}
    (replied : sendRequest env .setattr
      ((Request.setattr handle which mode uid gid size atime mtime).sent gap rest)
      server = .ok (reply, after)) :
    files after.fs = files server.fs ∧
      (reply ≠ none → leadsTo (files server.fs) path ≠ none) := by
  have handled := dispatch_of_sent replied
  have args : setattrArgs
      ((Request.setattr handle which mode uid gid size atime mtime).sent gap rest) =
      ⟨.ok handle, .ok which, .ok mode, .ok uid, .ok gid, .ok size, .ok atime,
        .ok mtime⟩ :=
    Request.receivedIn_sent gap rest
      (.setattr handle which mode uid gid size atime mtime)
  have handled : handleSetattr env ⟨.ok handle, .ok which, .ok mode, .ok uid, .ok gid,
      .ok size, .ok atime, .ok mtime⟩ server = .ok after := by
    rw [← args]
    exact handled
  have changed : files after.fs = files server.fs := by
    rcases handleSetattr_cases handled with refused | answered
    · exact refused.quiet.served_eq onTree.undisturbed
    · exact onTree.files_eq answered.inPlace
  refine ⟨changed, ?_⟩
  intro given
  obtain ⟨sent, rfl⟩ := Option.ne_none_iff_exists'.mp given
  have answered := not_refused_of_replied replied
  rcases handleSetattr_ends handled with missing | ⟨name, st, found, isFound, _⟩
  · exact absurd missing.refused answered
  · have isPath := stored_of_stands stands isFound.stored
    subst isPath
    rw [leadsTo_of_fileFound onTree isFound]
    exact Option.some_ne_none _

/-- The call REMOVE makes. -/
def removal (isDir : UInt8) (path : CString) : Call :=
  if isDir ≠ 0 then .rmdir path else .unlink path

theorem remove_effect (onTree : OnTree env.kernel files)
    (fresh : ∃ pairs, Fresh server pairs) (stands : StandsFor server handle path)
    {isDir : UInt8} {gap : Nat → UInt8} {rest : Bytes} {reply : Option Reply}
    (replied : sendRequest env .remove
      ((Request.remove handle isDir).sent gap rest) server = .ok (reply, after)) :
    (reply = none ∧ files after.fs = files server.fs) ∨
      (reply ≠ none ∧ leadsTo (files server.fs) path ≠ none ∧
        filesAfter (files server.fs) (removal isDir path) = some (files after.fs)) := by
  have handled := dispatch_of_sent replied
  have args : removeArgs ((Request.remove handle isDir).sent gap rest) =
      ⟨.ok handle, .ok isDir⟩ :=
    Request.receivedIn_sent gap rest (.remove handle isDir)
  have handled : handleRemove env ⟨.ok handle, .ok isDir⟩ server = .ok after := by
    rw [← args]
    exact handled
  rcases handleRemove_cases handled with refused | ⟨other, name, removed, gone⟩
  · refine Or.inl ⟨?_, refused.quiet.served_eq onTree.undisturbed⟩
    by_contra given
    obtain ⟨sent, rfl⟩ := Option.ne_none_iff_exists'.mp given
    exact not_refused_of_replied replied refused
  · have fhRead := gone.fhRead
    cases fhRead
    obtain ⟨pairs, fresh⟩ := fresh
    obtain ⟨isPath, pair⟩ := stands.pair fresh gone.stored
    subst isPath
    have wasThere : removed = true := by
      rw [(fresh.removed gone.db gone.draws).2, pair]
      rfl
    subst wasThere
    obtain ⟨st, fs1, flag, stat, flagRead, removal_⟩ := gone.unlinked
    cases flagRead
    have looked := onTree.undisturbed.readOnly (.stat name) server.fs rfl
    rw [stat] at looked
    have given := reply_of_sent replied gone.sent rfl (by decide)
    refine Or.inr ⟨?_, ?_, ?_⟩
    · rw [given]
      exact Option.some_ne_none _
    · rw [leadsTo_of_stat onTree stat]
      exact Option.some_ne_none _
    · rw [← looked, removal]
      split at removal_
      · rw [if_pos (by assumption)]
        exact onTree.of_ok removal_.2
      · rw [if_neg (by assumption)]
        exact onTree.of_ok removal_

theorem rename_effect (onTree : OnTree env.kernel files)
    (fresh : ∃ pairs, Fresh server pairs) (stands : StandsFor server handle path)
    {newpath : CString} {following : Nat → UInt8} {reply : Option Reply}
    (replied : sendRequest env .rename (renameMessage handle newpath following)
      server = .ok (reply, after)) :
    (reply = none ∧ files after.fs = files server.fs) ∨
      (reply ≠ none ∧ filesAfter (files server.fs)
        (.rename path (CString.sent newpath)) = some (files after.fs)) := by
  have handled := serve_of_sendRequest replied
  rw [serve_renameMessage] at handled
  rcases handleRename_cases handled with
    refused | ⟨other, oldName, newName, newHandle, removed, moved⟩
  · refine Or.inl ⟨?_, refused.quiet.served_eq onTree.undisturbed⟩
    by_contra given
    obtain ⟨sent, rfl⟩ := Option.ne_none_iff_exists'.mp given
    exact not_refused_of_replied replied refused
  · have fhRead := moved.fhRead
    cases fhRead
    have filenameRead := moved.filenameRead
    cases filenameRead
    obtain ⟨pairs, fresh⟩ := fresh
    obtain ⟨isPath, pair⟩ := stands.pair fresh moved.stored
    subst isPath
    obtain ⟨middle, inserted, removal_⟩ := moved.db
    obtain ⟨more, freshMiddle, gains, _⟩ :=
      fresh.called { after with db := middle } inserted
    have wasThere : removed = true := by
      rw [(freshMiddle.removed removal_ rfl).2, gains.kept _ _ pair]
      rfl
    subst wasThere
    have given := reply_of_sent replied moved.sent rfl (by decide)
    refine Or.inr ⟨?_, onTree.of_ok moved.moved⟩
    rw [given]
    exact Option.some_ne_none _

/-- CREATE and MKDIR, whose handlers differ in their call and their reply. -/
theorem make_effect (onTree : OnTree env.kernel files)
    {call : CString → UInt32 → Call} {replyWith : Fhandle → Reply} {size : Nat}
    {mode : UInt32} {type : MsgType} {message : Bytes} {reply : Option Reply}
    (replied : sendRequest env type message server = .ok (reply, after))
    (handled : handleMake env call replyWith size (.ok path) (.ok mode) server =
      .ok after)
    (typed : ∀ given, Reply.type (replyWith given) = type)
    (noErrors : ∀ given, (replyWith given).isError = false)
    (notError : type ≠ .error) :
    (reply = none ∧ files after.fs = files server.fs) ∨
      ((∃ given, reply = some (replyWith given)) ∧
        filesAfter (files server.fs) (call path mode) = some (files after.fs)) := by
  rcases handleMake_cases noErrors handled with
    refused | ⟨created, given, made, sent⟩
  · refine Or.inl ⟨?_, refused.quiet.served_eq onTree.undisturbed⟩
    by_contra some
    obtain ⟨sent, rfl⟩ := Option.ne_none_iff_exists'.mp some
    exact not_refused_of_replied replied refused
  · cases made.filenameRead
    obtain ⟨bits, modeRead, result, called⟩ := made.made
    cases modeRead
    exact Or.inr ⟨⟨given, reply_of_sent replied sent (typed given) notError⟩,
      onTree.of_ok called⟩

end Requests

end ChlorosSnfs.Snfs.RequestEffects
