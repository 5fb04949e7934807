import ChlorosSnfs.Snfs.RequestEffects

/-!
# Requests that nothing stands in the way of

On a mounted server whose handles the client has just been given, a request is
answered as long as there is a handle to draw, and answered by a reply of its own
type whenever the tree allows what it asks for.  The root's handle stays the root's.
-/

set_option autoImplicit false

namespace ChlorosSnfs.Snfs.AnsweredRequests

open ChlorosSnfs.Library
open ChlorosSnfs.Library.FileTree
open ChlorosSnfs.Snfs.Fhandledb
open ChlorosSnfs.Snfs.Messages
open ChlorosSnfs.Snfs.Syscalls
open ChlorosSnfs.Snfs.Handlers
open ChlorosSnfs.Snfs.ServeLoop
open ChlorosSnfs.Snfs.HandlerEffects
open ChlorosSnfs.Snfs.Client
open ChlorosSnfs.Snfs.Wire
open ChlorosSnfs.Snfs.RoundTrip
open ChlorosSnfs.Snfs.FreshDraws
open ChlorosSnfs.Snfs.TreeKernel
open ChlorosSnfs.Snfs.PathWalk
open ChlorosSnfs.Snfs.ClientCalls
open ChlorosSnfs.Snfs.RequestEffects

variable {Fs : Type} {env : Env Fs} {files : Fs → Files} {server after : Server Fs}

/-! ## The root's handle -/

/-- Fresh draws, and the root's handle is the one the client was given. -/
structure Rooted (root : Fhandle) (server : Server Fs) (pairs : CString ≃. Fhandle) :
    Prop where
  fresh : Fresh server pairs
  rootPair : pairs rootPath = some root

theorem steps_rootPath : (pathOf rootPath).steps = [] := by decide

theorem removeKind_rootPath (files : Files) (isDir : Bool) :
    files.removeKind isDir (pathOf rootPath) = none := by
  simp [DirTree.removeKind, DirTree.entry, steps_rootPath]

/-- No call removes the root. -/
theorem ne_rootPath_of_removed {before next : Files} {path : CString} {call : Call}
    (removes : call = .rmdir path ∨ call = .unlink path)
    (succeeded : filesAfter before call = some next) : path ≠ rootPath := by
  rintro rfl
  rcases removes with rfl | rfl
  · simp [filesAfter, DirTree.rmdir, removeKind_rootPath] at succeeded
  · simp [filesAfter, DirTree.unlink, removeKind_rootPath] at succeeded

theorem ne_rootPath_of_renamed {before next : Files} {oldPath newPath : CString}
    (succeeded : filesAfter before (.rename oldPath newPath) = some next) :
    oldPath ≠ rootPath := by
  rintro rfl
  exact (rename_of_filesAfter succeeded).1 steps_rootPath

theorem Rooted.erased {root : Fhandle} {pairs : CString ≃. Fhandle}
    {filename : CString} (rootPair : pairs rootPath = some root)
    (notRoot : filename ≠ rootPath) :
    TwoWayMap.erase pairs filename rootPath = some root := by
  rw [TwoWayMap.erase_apply, if_neg notRoot.symm]
  exact rootPair

/-- The draws a request may use up. -/
structure Serves (root : Fhandle) (before after : Server Fs)
    (more : CString ≃. Fhandle) : Prop where
  rooted : Rooted root after more
  drawn : before.draws.length ≤ after.draws.length + 1

theorem serves_of_same {root : Fhandle} {before : Server Fs}
    {pairs : CString ≃. Fhandle} (rooted : Rooted root before pairs)
    (db : after.db = before.db) (draws : after.draws = before.draws) :
    Serves root before after pairs := by
  refine ⟨⟨rooted.fresh.of_same db draws, rooted.rootPair⟩, ?_⟩
  rw [draws]
  omega

theorem serves_of_called {root : Fhandle} {before : Server Fs}
    {pairs : CString ≃. Fhandle} (rooted : Rooted root before pairs)
    (after : Server Fs) {beyond : Fhandle} {filename : CString} {handle : Fhandle}
    (called : nameFindOrInsert beyond before.db before.draws filename =
      some (handle, after.db, after.draws)) :
    ∃ more, Serves root before after more := by
  obtain ⟨more, fresh, gains, supply⟩ := rooted.fresh.called after called
  refine ⟨more, ⟨fresh, gains.kept _ _ rooted.rootPair⟩, ?_⟩
  rcases supply with ⟨_, same⟩ | ⟨_, drawn⟩
  · rw [same]
    omega
  · simp [drawn]

theorem serves_of_ending (onTree : OnTree env.kernel files) {message : Bytes}
    {type : MsgType} {root : Fhandle} {pairs : CString ≃. Fhandle}
    (rooted : Rooted root server pairs) (ending : Ending env message server after type) :
    ∃ more, Serves root server after more := by
  cases ending with
  | refused refused => exact ⟨pairs, serves_of_same rooted refused.db refused.draws⟩
  | answered leaves answered =>
      exact ⟨pairs, serves_of_same rooted answered.db answered.draws⟩
  | mounted given named fs sent => exact serves_of_called rooted after named.inserted
  | lookedUp dirPath filename handle found =>
      exact serves_of_called rooted after found.named.inserted
  | created path handle made sent =>
      exact serves_of_called rooted after made.named.inserted
  | madeDirectory path handle made sent =>
      exact serves_of_called rooted after made.named.inserted
  | unlinked handle path removed gone =>
      have notRoot : path ≠ rootPath := by
        obtain ⟨st, fs1, flag, _, _, removal⟩ := gone.unlinked
        split at removal
        · exact ne_rootPath_of_removed (Or.inl rfl) (onTree.of_ok removal.2)
        · exact ne_rootPath_of_removed (Or.inr rfl) (onTree.of_ok removal)
      refine ⟨_, ⟨(rooted.fresh.removed gone.db gone.draws).1,
        Rooted.erased rooted.rootPair notRoot⟩, ?_⟩
      rw [gone.draws]
      omega
  | moved handle oldPath newPath newHandle removed moved =>
      have notRoot := ne_rootPath_of_renamed (onTree.of_ok moved.moved)
      obtain ⟨middle, inserted, result⟩ := moved.db
      obtain ⟨more, serves⟩ :=
        serves_of_called rooted { after with db := middle } inserted
      exact ⟨_, ⟨(serves.rooted.fresh.removed result rfl).1,
        Rooted.erased serves.rooted.rootPair notRoot⟩, serves.drawn⟩

/-- No request takes the root's handle away. -/
theorem serves_of_serve (onTree : OnTree env.kernel files) {message : Bytes}
    {root : Fhandle} {pairs : CString ≃. Fhandle} (rooted : Rooted root server pairs)
    (handled : serve env message server = .ok after) :
    ∃ more, Serves root server after more := by
  obtain ⟨_, _, ending⟩ := serve_ending handled
  exact serves_of_ending onTree rooted ending

/-! ## What the tree allows -/

/-- A kernel that makes every change of names that the tree allows. -/
structure Complies (kernel : Kernel Fs) (files : Fs → Files) : Prop where
  onTree : OnTree kernel files
  allows : ∀ call fs next, call.changesNames = true →
    filesAfter (files fs) call = some next →
      ∃ result, (kernel call fs).1 = .ok result

theorem changing_of_some {α : Type} {result : α} {tree next : Files}
    {changed : Option Files} (allowed : changed = some next) :
    (changing result tree changed).1 = .ok result := by
  rw [allowed]
  rfl

theorem treeKernel_complies : Complies treeKernel id where
  onTree := treeKernel_onTree
  allows := by
    intro call tree next changes allowed
    cases call with
    | creat path mode => exact ⟨_, changing_of_some allowed⟩
    | mkdir path mode => exact ⟨_, changing_of_some allowed⟩
    | unlink path => exact ⟨_, changing_of_some allowed⟩
    | rmdir path => exact ⟨_, changing_of_some allowed⟩
    | rename oldPath newPath => exact ⟨_, changing_of_some allowed⟩
    | _ => cases changes

/-- A change that fails was not allowed. -/
theorem Complies.not_allowed (complies : Complies env.kernel files) {call : Call}
    (changes : call.changesNames = true) {errno : Errno} {next : Server Fs}
    (failed : syscall env call server = (.error errno, next)) :
    filesAfter (files server.fs) call = none := by
  cases allowed : filesAfter (files server.fs) call with
  | none => rfl
  | some later =>
      obtain ⟨result, succeeded⟩ := complies.allows call server.fs later changes allowed
      rw [kernel_of_syscall failed] at succeeded
      cases succeeded

theorem leadsTo_of_removeKind {tree next : Files} {path : CString} {isDir : Bool}
    (named : path.bytes ≠ []) (slash : (pathOf path).slash = true → isDir = true)
    (removed : tree.removeKind isDir (pathOf path) = some next) :
    leadsTo tree path = some isDir := by
  obtain ⟨entry, found, kind⟩ := DirTree.removeKind_kind removed
  obtain ⟨node, here, isKind⟩ := Option.map_eq_some_iff.mp kind
  have directory : tree.isDirAt entry.place = isDir := by
    simp [DirTree.isDirAt, here, isKind]
  have resolved := DirTree.resolve_of_entry found (by simp [here])
    (fun ended => directory.trans (slash ended))
  rw [leadsTo, resolvePath, if_neg named, resolved]
  exact congrArg some directory

/-- What can be removed is there, and of the kind that is asked for. -/
theorem leadsTo_of_removal {tree next : Files} {path : CString} {isDir : UInt8}
    (allowed : filesAfter tree (removal isDir path) = some next) :
    leadsTo tree path = some (decide (isDir ≠ 0)) := by
  rw [removal] at allowed
  split at allowed
  · rename_i asDirectory
    rw [filesAfter] at allowed
    split at allowed
    · cases allowed
    · rename_i named
      rw [decide_eq_true asDirectory]
      exact leadsTo_of_removeKind named (fun _ => rfl) allowed
  · rename_i asFile
    rw [filesAfter] at allowed
    split at allowed
    · cases allowed
    · rename_i named
      rw [decide_eq_false asFile]
      rw [DirTree.unlink] at allowed
      split at allowed
      · cases allowed
      · rename_i noSlash
        exact leadsTo_of_removeKind named (fun ended => absurd ended noSlash) allowed

theorem leadsTo_of_stat_error (onTree : OnTree env.kernel files) {path : CString}
    {errno : Errno} {next : Server Fs}
    (failed : syscall env (.stat path) server = (.error errno, next)) :
    leadsTo (files server.fs) path = none := by
  cases resolved : resolvePath (files server.fs) path with
  | error reason => rw [leadsTo, resolved]
  | ok place =>
      obtain ⟨st, succeeded⟩ := onTree.stat_resolved path server.fs place resolved
      rw [kernel_of_syscall failed] at succeeded
      cases succeeded

/-! ## Answers -/

theorem replied_of_served (type : MsgType) {message : Bytes}
    (handled : serve env message server = .ok after) :
    ∃ reply, sendRequest env type message server = .ok (reply, after) := by
  simp only [sendRequest, handled, ok_bind]
  split
  · exact ⟨none, rfl⟩
  · split
    · exact ⟨none, rfl⟩
    · split
      · exact ⟨none, rfl⟩
      · exact ⟨_, rfl⟩

/-- An answer that is what was asked for whenever `allowed`. -/
def Answers (env : Env Fs) (message : Bytes) (type : MsgType) (allowed : Prop)
    (expected : Reply → Prop) (server : Server Fs) : Prop :=
  ∃ reply after, sendRequest env type message server = .ok (reply, after) ∧
    (allowed → ∃ given, reply = some given ∧ expected given)

theorem Answers.of_imp {message : Bytes} {type : MsgType} {allowed narrower : Prop}
    {expected : Reply → Prop} (answers : Answers env message type allowed expected server)
    (imp : narrower → allowed) : Answers env message type narrower expected server := by
  obtain ⟨reply, after, replied, given⟩ := answers
  exact ⟨reply, after, replied, fun now => given (imp now)⟩

theorem answers_of_served {message : Bytes} {type : MsgType} {allowed : Prop}
    {expected : Reply → Prop} (handled : serve env message server = .ok after)
    (typed : ∀ given, expected given → Reply.type given = type)
    (notError : type ≠ .error)
    (sent : allowed → ∃ given size, after.sent = (given, size) :: server.sent ∧
      expected given) :
    Answers env message type allowed expected server := by
  by_cases isAllowed : allowed
  · obtain ⟨given, size, sent, asked⟩ := sent isAllowed
    exact ⟨some given, after,
      sendRequest_of_reply type handled sent (typed given asked) notError,
      fun _ => ⟨given, rfl, asked⟩⟩
  · obtain ⟨reply, replied⟩ := replied_of_served type handled
    exact ⟨reply, after, replied, fun now => absurd now isAllowed⟩

section Answers

variable {handle : Fhandle} {path : CString} {pairs : CString ≃. Fhandle}

theorem getattr_answers (onTree : OnTree env.kernel files) (fresh : Fresh server pairs)
    (pair : pairs path = some handle) (gap : Nat → UInt8) (rest : Bytes) :
    Answers env ((Request.getattr handle).sent gap rest) .getattr
      (leadsTo (files server.fs) path ≠ none)
      (fun reply => ∃ attributes, reply = .getattr attributes) server := by
  have args : getattrArgs ((Request.getattr handle).sent gap rest) = ⟨.ok handle⟩ :=
    Request.receivedIn_sent gap rest (.getattr handle)
  have served : serve env ((Request.getattr handle).sent gap rest) server =
      handleGetattr env ⟨.ok handle⟩ server := by
    rw [serve_of_messageType (Request.messageType_sent gap rest (.getattr handle)),
      ← args]
    rfl
  simp only [handleGetattr, ok_bind, fresh.getFile_of_pair pair, asString,
    stringAt_key] at served
  cases called : syscall env (.stat path) server with
  | mk outcome next =>
      have kept := kept_of_syscall called
      rw [called] at served
      cases outcome with
      | error errno =>
          apply answers_of_served served (by rintro _ ⟨_, rfl⟩; rfl) (by decide)
          intro leads
          exact absurd (leadsTo_of_stat_error onTree called) leads
      | ok st =>
          apply answers_of_served served (by rintro _ ⟨_, rfl⟩; rfl) (by decide)
          have sent : (sendReply (.getattr (statToFattr st env.leftover.fattr))
              (snfsRepSize sizeofGetattrRep) next).sent =
              (.getattr (statToFattr st env.leftover.fattr),
                snfsRepSize sizeofGetattrRep) :: server.sent := by
            rw [sendReply, kept.sent]
          exact fun _ => ⟨_, _, sent, _, rfl⟩

/-- CREATE and MKDIR. -/
theorem make_answers (complies : Complies env.kernel files) (fresh : Fresh server pairs)
    (supply : server.draws ≠ []) {call : CString → UInt32 → Call}
    {replyWith : Fhandle → Reply} {size : Nat} {mode : UInt32} {message : Bytes}
    {type : MsgType}
    (served : serve env message server =
      handleMake env call replyWith size (.ok path) (.ok mode) server)
    (changes : (call path mode).changesNames = true)
    (typed : ∀ given, Reply.type (replyWith given) = type) (notError : type ≠ .error) :
    Answers env message type (filesAfter (files server.fs) (call path mode) ≠ none)
      (fun reply => ∃ given, reply = replyWith given) server := by
  cases called : syscall env (call path mode) server with
  | mk outcome next =>
      cases outcome with
      | error errno =>
          simp only [handleMake, ok_bind, called] at served
          apply answers_of_served served (by rintro _ ⟨_, rfl⟩; exact typed _) notError
          intro allowed
          exact absurd (complies.not_allowed changes called) allowed
      | ok result =>
          obtain ⟨given, after, handled, sent, _⟩ := handleMake_of_called env replyWith
            size fresh supply (kernel_of_syscall called)
          apply answers_of_served (served.trans handled)
            (by rintro _ ⟨_, rfl⟩; exact typed _) notError
          exact fun _ => ⟨_, _, sent, given, rfl⟩

/-- The name that has been removed is forgotten, and the client is told so. -/
theorem removeStored_of_pair (env : Env Fs) (fresh : Fresh server pairs)
    (pair : pairs path = some handle) :
    ∃ after, removeStored env path server = .ok after ∧
      after.sent = (.remove, snfsRepSize sizeofRemoveRep) :: server.sent := by
  have removed : removeStored env path server =
      .ok (sendReply .remove (snfsRepSize sizeofRemoveRep)
        { server with db := unpaired server.db path handle }) := by
    simp only [removeStored, removeName, nameRemove_of_stored fresh.holds pair, ok_bind,
      Bool.not_true, Bool.false_eq_true, if_false]
    rfl
  exact ⟨_, removed, rfl⟩

/-- The rest of REMOVE, which calls `rmdir` or `unlink`. -/
theorem remove_answers_of_called (complies : Complies env.kernel files)
    {start : Server Fs} (fresh : Fresh server pairs) (pair : pairs path = some handle)
    (startSent : server.sent = start.sent) {call : Call} (changes : call.changesNames)
    {message : Bytes}
    (refuses : ∀ errno next, syscall env call server = (.error errno, next) →
      serve env message start = .ok (handleError (errorOf .eacces .enotdir errno) next))
    (removes : ∀ result next, syscall env call server = (.ok result, next) →
      serve env message start = removeStored env path next) :
    Answers env message .remove (filesAfter (files server.fs) call ≠ none)
      (· = .remove) start := by
  cases called : syscall env call server with
  | mk outcome next =>
      have kept := kept_of_syscall called
      cases outcome with
      | error errno =>
          apply answers_of_served (refuses errno next called) (by rintro _ rfl; rfl)
            (by decide)
          intro allowed
          exact absurd (complies.not_allowed changes called) allowed
      | ok result =>
          obtain ⟨after, removed, sent⟩ := removeStored_of_pair env
            (fresh.of_same kept.db kept.draws) pair
          apply answers_of_served ((removes result next called).trans removed)
            (by rintro _ rfl; rfl) (by decide)
          rw [kept.sent, startSent] at sent
          exact fun _ => ⟨_, _, sent, rfl⟩

theorem remove_answers (complies : Complies env.kernel files)
    (fresh : Fresh server pairs) (pair : pairs path = some handle) (isDir : UInt8)
    (gap : Nat → UInt8) (rest : Bytes) :
    Answers env ((Request.remove handle isDir).sent gap rest) .remove
      (filesAfter (files server.fs) (removal isDir path) ≠ none) (· = .remove)
      server := by
  have args : removeArgs ((Request.remove handle isDir).sent gap rest) =
      ⟨.ok handle, .ok isDir⟩ :=
    Request.receivedIn_sent gap rest (.remove handle isDir)
  have served : serve env ((Request.remove handle isDir).sent gap rest) server =
      handleRemove env ⟨.ok handle, .ok isDir⟩ server := by
    rw [serve_of_messageType
      (Request.messageType_sent gap rest (.remove handle isDir)), ← args]
    rfl
  simp only [handleRemove, ok_bind, fresh.getFile_of_pair pair, asString,
    stringAt_key] at served
  cases called : syscall env (.stat path) server with
  | mk outcome next =>
      have kept := kept_of_syscall called
      have same : files next.fs = files server.fs := by
        have looked := complies.onTree.undisturbed.readOnly (.stat path) server.fs rfl
        rw [kernel_of_syscall called] at looked
        exact looked
      rw [called] at served
      cases outcome with
      | error errno =>
          apply answers_of_served served (by rintro _ rfl; rfl) (by decide)
          intro allowed
          obtain ⟨later, allowed⟩ := Option.ne_none_iff_exists'.mp allowed
          have leads := leadsTo_of_removal allowed
          rw [leadsTo_of_stat_error complies.onTree called] at leads
          cases leads
      | ok st =>
          have leads := leadsTo_of_stat complies.onTree (kernel_of_syscall called)
          have freshNext := fresh.of_same kept.db kept.draws
          rw [removal, ← same]
          split
          · rename_i asDirectory
            simp only [if_pos asDirectory] at served
            cases directory : sIsdir st.mode with
            | false =>
                simp only [directory, Bool.not_false, if_true] at served
                apply answers_of_served served (by rintro _ rfl; rfl) (by decide)
                intro allowed
                obtain ⟨later, allowed⟩ := Option.ne_none_iff_exists'.mp allowed
                have isDirectory : filesAfter (files server.fs) (removal isDir path) =
                    some later := by
                  rw [removal, if_pos asDirectory, ← same]
                  exact allowed
                have needed := leadsTo_of_removal isDirectory
                rw [leads, directory, decide_eq_true asDirectory] at needed
                cases needed
            | true =>
                simp only [directory, Bool.not_true, Bool.false_eq_true, if_false]
                  at served
                refine remove_answers_of_called complies freshNext pair kept.sent rfl
                  ?_ ?_
                · intro errno later failed
                  rw [served, failed]
                  rfl
                · intro result later succeeded
                  rw [served, succeeded]
          · rename_i asFile
            simp only [if_neg asFile] at served
            refine remove_answers_of_called complies freshNext pair kept.sent rfl ?_ ?_
            · intro errno later failed
              rw [served, failed]
              rfl
            · intro result later succeeded
              rw [served, succeeded]

theorem rename_answers (complies : Complies env.kernel files)
    (fresh : Fresh server pairs) (pair : pairs path = some handle)
    (supply : server.draws ≠ []) (newpath : CString) (following : Nat → UInt8) :
    Answers env (renameMessage handle newpath following) .rename
      (filesAfter (files server.fs) (.rename path (CString.sent newpath)) ≠ none)
      (fun reply => ∃ given, reply = .rename given) server := by
  have served := serve_renameMessage env handle newpath following server
  simp only [handleRename, ok_bind, fresh.getFile_of_pair pair, asString,
    stringAt_key] at served
  cases called : syscall env (.rename path (CString.sent newpath)) server with
  | mk outcome next =>
      have kept := kept_of_syscall called
      rw [called] at served
      cases outcome with
      | error errno =>
          apply answers_of_served served (by rintro _ ⟨_, rfl⟩; rfl) (by decide)
          intro allowed
          exact absurd (complies.not_allowed rfl called) allowed
      | ok result =>
          have freshNext := fresh.of_same kept.db kept.draws
          obtain ⟨newHandle, inserted, found⟩ := freshNext.findOrInsert_ok env
            (CString.sent newpath) (fun _ => by rw [kept.draws]; exact supply)
          obtain ⟨insertion, _, sentInserted⟩ := findOrInsert_eq_ok found
          obtain ⟨more, freshInserted, gains, _⟩ := freshNext.called inserted insertion
          have removed : removeName env path inserted = .ok (true,
              { inserted with db := unpaired inserted.db path handle }) := by
            rw [removeName, nameRemove_of_stored freshInserted.holds
              (gains.kept _ _ pair)]
          simp only [found, ok_bind, removed, Bool.not_true, Bool.false_eq_true,
            if_false] at served
          apply answers_of_served served (by rintro _ ⟨_, rfl⟩; rfl) (by decide)
          refine fun _ => ⟨.rename newHandle, snfsRepSize sizeofRenameRep, ?_, _, rfl⟩
          rw [sendReply]
          exact congrArg _ (sentInserted.trans kept.sent)

end Answers

end ChlorosSnfs.Snfs.AnsweredRequests
