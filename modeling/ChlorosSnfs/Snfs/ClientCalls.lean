import ChlorosSnfs.Snfs.PathWalk

/-!
# The calls that create and rename

What `snfs_create`, `snfs_mkdir` and `snfs_rename` have done on the server when
they return 0, and when they do.  The path arrives as what its filename field
holds of it.
-/

set_option autoImplicit false

namespace ChlorosSnfs.Snfs.ClientCalls

open ChlorosSnfs.Library
open ChlorosSnfs.Snfs.Fhandledb
open ChlorosSnfs.Snfs.Messages
open ChlorosSnfs.Snfs.Syscalls
open ChlorosSnfs.Snfs.Handlers
open ChlorosSnfs.Snfs.ServeLoop
open ChlorosSnfs.Snfs.HandlerEffects
open ChlorosSnfs.Snfs.Client
open ChlorosSnfs.Snfs.FreshDraws
open ChlorosSnfs.Snfs.PathWalk

variable {Fs : Type}

theorem serve_of_sendRequest {env : Env Fs} {type : MsgType} {message : Bytes}
    {server next : Server Fs} {reply : Option Reply}
    (replied : sendRequest env type message server = .ok (reply, next)) :
    serve env message server = .ok next := by
  rw [sendRequest, bind_eq_ok] at replied
  obtain ⟨after, handled, replied⟩ := replied
  rw [handled]
  split at replied
  · cases replied
    rfl
  · split at replied
    · cases replied
      rfl
    · split at replied
      · cases replied
        rfl
      · cases replied
        rfl

/-- A reply that reaches its caller is the server's last one. -/
theorem sendRequest_eq_some {env : Env Fs} {type : MsgType}
    {message : Bytes} {server next : Server Fs} {reply : Reply}
    (replied : sendRequest env type message server = .ok (some reply, next)) :
    serve env message server = .ok next ∧
      (∃ size rest, next.sent = (reply, size) :: rest) ∧
      reply.isError = false := by
  rw [sendRequest, bind_eq_ok] at replied
  obtain ⟨after, handled, replied⟩ := replied
  split at replied
  · cases replied
  · rename_i size rest sent
    split at replied
    · cases replied
    · rename_i notError
      split at replied
      · cases replied
      · cases replied
        refine ⟨handled, ⟨size, rest, sent⟩, ?_⟩
        cases reply <;> first | rfl | exact absurd rfl notError

/-! ## `snfs_create` and `snfs_mkdir` -/

/-- What the server has done when its reply to a CREATE or MKDIR is no ERROR. -/
theorem handleMake_eq_ok {env : Env Fs} {call : CString → UInt32 → Call}
    {replyWith : Fhandle → Reply} {size : Nat} {path : CString} {mode : UInt32}
    {server after : Server Fs} {pairs : CString ≃. Fhandle}
    (fresh : Fresh server pairs)
    (noErrors : ∀ handle, (replyWith handle).isError = false)
    (handled : handleMake env call replyWith size (.ok path) (.ok mode) server =
      .ok after) {reply : Reply} {sentSize : Nat} {rest : List (Reply × Nat)}
    (sent : after.sent = (reply, sentSize) :: rest)
    (notError : reply.isError = false) :
    ∃ handle, reply = replyWith handle ∧
      (∃ result, env.kernel (call path mode) server.fs = (.ok result, after.fs)) ∧
      ∃ more, Fresh after more ∧ Gains pairs more path handle := by
  rcases handleMake_cases noErrors handled with
    refused | ⟨created, handle, made, alsoSent⟩
  · exact absurd refused (not_refused_of_reply sent notError)
  · rw [sent] at alsoSent
    obtain ⟨more, freshAfter, gains, _⟩ := fresh.called after made.named.inserted
    cases made.filenameRead
    obtain ⟨bits, modeRead, result, called⟩ := made.made
    cases modeRead
    exact ⟨handle, (Prod.mk.inj (List.cons.inj alsoSent).1).1, ⟨result, called⟩,
      more, freshAfter, gains⟩

theorem snfsCreate_eq_zero {link : Link Fs} {path : CString} {mode : UInt32}
    {fh handle : Fhandle} {server after : Server Fs}
    {pairs : CString ≃. Fhandle} (fresh : Fresh server pairs)
    (returned : snfsCreate link path mode fh server = .ok ((0, handle), after)) :
    (∃ fd, link.kernel (.creat (CString.sent path) mode) server.fs =
      (.ok fd, after.fs)) ∧
    ∃ more, Fresh after more ∧ Gains pairs more (CString.sent path) handle := by
  rw [snfsCreate] at returned
  split at returned
  · cases returned
  · rw [bind_eq_ok] at returned
    obtain ⟨⟨reply, next⟩, replied, returned⟩ := returned
    split at returned
    · rename_i given same
      cases same
      cases returned
      obtain ⟨handled, ⟨size, rest, sent⟩, notError⟩ :=
        sendRequest_eq_some replied
      rw [serve_createMessage, handleCreate] at handled
      obtain ⟨other, sameReply, called, gained⟩ :=
        handleMake_eq_ok fresh (fun _ => rfl) handled sent notError
      cases sameReply
      exact ⟨called, gained⟩
    · cases returned

theorem snfsMkdir_eq_zero {link : Link Fs} {path : CString} {mode : UInt32}
    {server after : Server Fs} {pairs : CString ≃. Fhandle}
    (fresh : Fresh server pairs)
    (returned : snfsMkdir link path mode server = .ok (0, after)) :
    link.kernel (.mkdir (CString.sent path) (mode ||| sIfdir)) server.fs =
      (.ok (), after.fs) ∧
    ∃ more handle, Fresh after more ∧
      Gains pairs more (CString.sent path) handle := by
  rw [snfsMkdir] at returned
  split at returned
  · cases returned
  · rw [bind_eq_ok] at returned
    obtain ⟨⟨reply, next⟩, replied, returned⟩ := returned
    split at returned
    · rename_i given same
      cases same
      cases returned
      obtain ⟨handled, ⟨size, rest, sent⟩, notError⟩ :=
        sendRequest_eq_some replied
      rw [serve_mkdirMessage, handleMkdir] at handled
      obtain ⟨handle, _, ⟨_, called⟩, more, freshAfter, gains⟩ :=
        handleMake_eq_ok fresh (fun _ => rfl) handled sent notError
      exact ⟨called, more, handle, freshAfter, gains⟩
    · cases returned

/-- A call that succeeded on the server, as the handlers see it. -/
theorem syscall_of_kernel (env : Env Fs) {call : Call} {server : Server Fs}
    {outcome : Outcome call} {fs : Fs}
    (called : env.kernel call server.fs = (outcome, fs)) :
    ∃ next, syscall env call server = (outcome, next) ∧ next.fs = fs := by
  refine ⟨(syscall env call server).2, ?_, ?_⟩
  · rw [syscall, called]
  · rw [syscall_fs, called]

/-- As long as there are handles to draw, a call that succeeds is answered. -/
theorem handleMake_of_called (env : Env Fs) {call : CString → UInt32 → Call}
    (replyWith : Fhandle → Reply) (size : Nat) {path : CString} {mode : UInt32}
    {server : Server Fs} {pairs : CString ≃. Fhandle}
    (fresh : Fresh server pairs) (supply : server.draws ≠ [])
    {result : Result (call path mode)} {fs : Fs}
    (called : env.kernel (call path mode) server.fs = (.ok result, fs)) :
    ∃ handle after, handleMake env call replyWith size (.ok path) (.ok mode)
        server = .ok after ∧
      after.sent = (replyWith handle, snfsRepSize size) :: server.sent ∧
      after.fs = fs := by
  obtain ⟨next, created, nextFs⟩ := syscall_of_kernel env called
  have kept := kept_of_syscall created
  have freshNext := fresh.of_same kept.db kept.draws
  obtain ⟨handle, after, inserted⟩ := freshNext.findOrInsert_ok env path
    (fun _ => by rw [kept.draws]; exact supply)
  obtain ⟨_, sameFs, sent⟩ := findOrInsert_eq_ok inserted
  refine ⟨handle, sendReply (replyWith handle) (snfsRepSize size) after, ?_, ?_,
    sameFs.trans nextFs⟩
  · simp only [handleMake, ok_bind, created, inserted]
    rfl
  · rw [sendReply, sent, kept.sent]

theorem snfsCreate_of_created {link : Link Fs} {path : CString}
    {mode : UInt32} {server : Server Fs} {pairs : CString ≃. Fhandle}
    (fresh : Fresh server pairs) (notRoot : path ≠ rootPath)
    (supply : server.draws ≠ []) {fd : Nat} {fs : Fs}
    (called : link.kernel (.creat (CString.sent path) mode) server.fs =
      (.ok fd, fs)) (fh : Fhandle) :
    ∃ handle after, snfsCreate link path mode fh server =
      .ok ((0, handle), after) ∧ after.fs = fs := by
  have served := serve_createMessage (link.env 0) path (link.following 0) mode
    server
  obtain ⟨handle, after, handled, sent, afterFs⟩ := handleMake_of_called
    (link.env 0) .create sizeofCreateRep fresh supply called
  rw [handleCreate, handled] at served
  have replied := sendRequest_of_reply .create served sent rfl (by simp)
  refine ⟨handle, after, ?_, afterFs⟩
  rw [snfsCreate, if_neg notRoot]
  dsimp only
  rw [replied]
  rfl

theorem snfsMkdir_of_made {link : Link Fs} {path : CString}
    {mode : UInt32} {server : Server Fs} {pairs : CString ≃. Fhandle}
    (fresh : Fresh server pairs) (notRoot : path ≠ rootPath)
    (supply : server.draws ≠ []) {fs : Fs}
    (called : link.kernel (.mkdir (CString.sent path) (mode ||| sIfdir))
      server.fs = (.ok (), fs)) :
    ∃ after, snfsMkdir link path mode server = .ok (0, after) ∧
      after.fs = fs := by
  have served := serve_mkdirMessage (link.env 0) path (link.following 0)
    (mode ||| sIfdir) server
  obtain ⟨handle, after, handled, sent, afterFs⟩ := handleMake_of_called
    (link.env 0) .mkdir sizeofMkdirRep fresh supply called
  rw [handleMkdir, handled] at served
  have replied := sendRequest_of_reply .mkdir served sent rfl (by simp)
  refine ⟨after, ?_, afterFs⟩
  rw [snfsMkdir, if_neg notRoot]
  dsimp only
  rw [replied]
  rfl

/-! ## `snfs_rename` -/

theorem snfsRename_eq_zero {link : Link Fs} {leads : CString → Option Bool}
    {root : Fhandle} {oldpath newpath : CString} {server after : Server Fs}
    (standing : Standing link.kernel server.fs leads)
    {pairs : CString ≃. Fhandle} (fresh : Fresh server pairs)
    (rootPair : pairs rootPath = some root)
    (short : ∀ name ∈ tokens oldpath, name.bytes.length ≤ snfsMaxFilenameLength)
    (supply : (tokens oldpath).length ≤ server.draws.length)
    (returned : snfsRename link root oldpath newpath server = .ok (0, after)) :
    (∃ fs, Quiet link.kernel server.fs fs ∧
      link.kernel (.rename (joinedPath (tokens oldpath)) (CString.sent newpath))
        fs = (.ok (), after.fs)) ∧
    ∃ more, Fresh after more ∧ ∀ other stored, pairs other = some stored →
      other ≠ joinedPath (tokens oldpath) → more other = some stored := by
  obtain ⟨middle, named, walked, outcome⟩ := lookup_walk standing fresh
    (.refl _) rootPair short ((unnamed_le_length _ _ _).trans supply) 0
  rcases outcome with ⟨_, handle, found, pair, _⟩ | ⟨_, missed⟩
  · rw [snfsRename, found] at returned
    simp only [ok_bind, Bool.not_true, Bool.false_eq_true, if_false,
      bind_eq_ok] at returned
    obtain ⟨⟨reply, next⟩, replied, returned⟩ := returned
    split at returned
    · rename_i given same
      cases same
      cases returned
      obtain ⟨handled, ⟨size, rest, sent⟩, notError⟩ :=
        sendRequest_eq_some replied
      rw [serve_renameMessage] at handled
      rcases handleRename_cases handled with
        refused | ⟨fh, oldName, newName, newHandle, removed, moved⟩
      · exact absurd refused (not_refused_of_reply sent notError)
      · have fhRead := moved.fhRead
        cases fhRead
        have stored := moved.stored
        rw [walked.fresh.storedPath_of_pair pair] at stored
        cases stored
        have filenameRead := moved.filenameRead
        cases filenameRead
        obtain ⟨last, inserted, removal⟩ := moved.db
        obtain ⟨more, freshLast, gains, _⟩ :=
          walked.fresh.called { after with db := last } inserted
        refine ⟨⟨middle.fs, walked.quiet, moved.moved⟩, _,
          (freshLast.removed removal rfl).1, ?_⟩
        intro other stored known different
        rw [TwoWayMap.erase_apply, if_neg different]
        exact gains.kept _ _ (walked.kept _ _ known)
    · cases returned
  · rw [snfsRename, missed] at returned
    cases returned

theorem snfsRename_of_renamed {link : Link Fs} {leads : CString → Option Bool}
    {root : Fhandle} {oldpath newpath : CString} {server : Server Fs}
    (standing : Standing link.kernel server.fs leads)
    {pairs : CString ≃. Fhandle} (fresh : Fresh server pairs)
    (rootPair : pairs rootPath = some root)
    (short : ∀ name ∈ tokens oldpath, name.bytes.length ≤ snfsMaxFilenameLength)
    (supply : (tokens oldpath).length < server.draws.length)
    (resolves : Resolves leads (tokens oldpath)) {fs : Fs}
    (called : ∀ middle, Quiet link.kernel server.fs middle →
      link.kernel (.rename (joinedPath (tokens oldpath)) (CString.sent newpath))
        middle = (.ok (), fs)) :
    ∃ after, snfsRename link root oldpath newpath server = .ok (0, after) ∧
      after.fs = fs := by
  have enough := (unnamed_le_length pairs [] (tokens oldpath)).trans supply.le
  obtain ⟨middle, more, walked, outcome⟩ := lookup_walk standing fresh
    (.refl _) rootPair short enough 0
  rcases outcome with ⟨_, handle, found, pair, _⟩ | ⟨misses, _⟩
  · obtain ⟨renamed, moved, renamedFs⟩ := syscall_of_kernel
      (link.env (tokens oldpath).length) (called middle.fs walked.quiet)
    have kept := kept_of_syscall moved
    have freshRenamed := walked.fresh.of_same kept.db kept.draws
    have drawsLeft : renamed.draws ≠ [] := by
      have drawn := walked.drawn
      intro empty
      rw [kept.draws] at empty
      rw [empty, List.length_nil] at drawn
      omega
    obtain ⟨newHandle, last, inserted⟩ := freshRenamed.findOrInsert_ok
      (link.env (tokens oldpath).length) (CString.sent newpath)
      (fun _ => drawsLeft)
    obtain ⟨calledLast, lastFs, lastSent⟩ := findOrInsert_eq_ok inserted
    obtain ⟨final, freshLast, gains, _⟩ := freshRenamed.called last calledLast
    have stillPair := gains.kept _ _ pair
    obtain ⟨after, removed, afterFs, afterSent⟩ : ∃ after,
        removeName (link.env (tokens oldpath).length)
          (joinedPath (tokens oldpath)) last = .ok (true, after) ∧
        after.fs = last.fs ∧ after.sent = last.sent := by
      rw [removeName, nameRemove_of_stored freshLast.holds stillPair]
      exact ⟨_, rfl, rfl, rfl⟩
    have served := serve_renameMessage (link.env (tokens oldpath).length) handle
      newpath (link.following (tokens oldpath).length) middle
    simp only [handleRename, ok_bind, walked.fresh.getFile_of_pair pair,
      asString, stringAt_key, moved, inserted, removed] at served
    have sentReply : (sendReply (.rename newHandle)
        (snfsRepSize sizeofRenameRep) after).sent =
        (.rename newHandle, snfsRepSize sizeofRenameRep) :: middle.sent := by
      rw [sendReply, afterSent, lastSent, kept.sent]
    have replied := sendRequest_of_reply .rename served sentReply rfl (by simp)
    refine ⟨sendReply (.rename newHandle) (snfsRepSize sizeofRenameRep) after,
      ?_, afterFs.trans (lastFs.trans renamedFs)⟩
    rw [snfsRename, found]
    simp only [ok_bind, Bool.not_true, Bool.false_eq_true, if_false]
    rw [replied]
    rfl
  · exact absurd resolves misses

end ChlorosSnfs.Snfs.ClientCalls
