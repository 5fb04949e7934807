import ChlorosSnfs.Snfs.AnsweredRequests
import ChlorosSnfs.Snfs.InterleavedCalls

/-!
# A remote tree is a local one

One client alone with a server whose kernel makes every change the tree allows: any
sequence of calls gives the answers the same calls give on a local tree, and leaves
the same tree behind.  No call stops, and none fails for a reason of its own.  An
answer is whether the call succeeds and, of `snfs_getattr`, whether it finds a
directory; the number of an error and the other attributes are not compared.
-/

set_option autoImplicit false

namespace ChlorosSnfs.Snfs.RemoteTree

open ChlorosSnfs.Library.Dialogues
open ChlorosSnfs.Library.FileTree
open ChlorosSnfs.Library.Runs
open ChlorosSnfs.Snfs.Fhandledb
open ChlorosSnfs.Snfs.Messages
open ChlorosSnfs.Snfs.Syscalls
open ChlorosSnfs.Snfs.Handlers
open ChlorosSnfs.Snfs.ServeLoop
open ChlorosSnfs.Snfs.HandlerEffects
open ChlorosSnfs.Snfs.Client
open ChlorosSnfs.Snfs.Wire
open ChlorosSnfs.Snfs.ClientCalls
open ChlorosSnfs.Snfs.FreshDraws
open ChlorosSnfs.Snfs.TreeKernel
open ChlorosSnfs.Snfs.PathWalk
open ChlorosSnfs.Snfs.PathAgreement
open ChlorosSnfs.Snfs.PathCalls
open ChlorosSnfs.Snfs.HandleIdentity (noLeftover)
open ChlorosSnfs.Snfs.GivenHandles
open ChlorosSnfs.Snfs.InterleavedCalls
open ChlorosSnfs.Snfs.RequestEffects
open ChlorosSnfs.Snfs.AnsweredRequests

variable {Fs : Type}

/-! ## The local tree -/

/-- A call with its paths as components, and what its out parameter held before. -/
inductive TreeCall where
  | getattr (names : List CString) (stbuf : Stat)
  | openFile (names : List CString) (fh : Fhandle)
  | create (names : List CString) (mode : UInt32) (fh : Fhandle)
  | mkdir (names : List CString) (mode : UInt32)
  | unlink (names : List CString)
  | rmdir (names : List CString)
  | rename (oldNames newNames : List CString)

/-- Paths of components; a path that is sent as a whole fits its field. -/
def TreeCall.WellFormed : TreeCall → Prop
  | .create names _ _ | .mkdir names _ =>
      (∀ name ∈ names, Component name) ∧ PathAgreement.Fits names
  | .rename oldNames newNames =>
      (∀ name ∈ oldNames, Component name) ∧ PathAgreement.Fits newNames
  | .getattr names _ | .openFile names _ | .unlink names | .rmdir names =>
      ∀ name ∈ names, Component name

/-- What a program learns from a call. -/
inductive Answer where
  | failed
  | done
  | found (isDir : Bool)
  deriving DecidableEq

/-- The call on a tree of one's own. -/
def localStep (files : Files) : TreeCall → Answer × Files
  | .getattr names _ =>
      match files.node (placeOf names) with
      | some node => (.found node.isDir, files)
      | none => (.failed, files)
  | .openFile names _ =>
      match files.node (placeOf names) with
      | some _ => (.done, files)
      | none => (.failed, files)
  | .create names mode _ => changed (.creat (joinedPath names) mode)
  | .mkdir names mode => changed (.mkdir (joinedPath names) (mode ||| sIfdir))
  | .unlink names => changed (.unlink (joinedPath names))
  | .rmdir names => changed (.rmdir (joinedPath names))
  | .rename oldNames newNames =>
      changed (.rename (joinedPath oldNames) (joinedPath newNames))
where
  changed (call : Call) : Answer × Files :=
    match filesAfter files call with
    | some next => (.done, next)
    | none => (.failed, files)

def localRun (files : Files) : List TreeCall → List Answer × Files
  | [] => ([], files)
  | call :: rest =>
      let (answer, next) := localStep files call
      let (answers, final) := localRun next rest
      (answer :: answers, final)

/-! ## The remote tree -/

def TreeCall.pathCall : TreeCall → PathCall
  | .getattr names stbuf => .walk (joinedPath names) (.getattr stbuf)
  | .openFile names fh => .walk (joinedPath names) (.openFile fh)
  | .create names mode fh => .create (joinedPath names) mode fh
  | .mkdir names mode => .mkdir (joinedPath names) mode
  | .unlink names => .walk (joinedPath names) .unlink
  | .rmdir names => .walk (joinedPath names) .rmdir
  | .rename oldNames newNames =>
      .walk (joinedPath oldNames) (.rename (joinedPath newNames))

def answerOf (returned : Returned) : TreeCall → Answer
  | .getattr _ _ =>
      if returned.code = 0 then
        match returned.output with
        | .attributes st => .found (sIsdir st.mode)
        | _ => .done
      else .failed
  | _ => if returned.code = 0 then .done else .failed

/-- A call and the memory it meets in the server and the client. -/
structure Issued where
  call : TreeCall
  leftover : Nat → Leftover
  following : Nat → Nat → UInt8

def remoteRun (kernel : Kernel Fs) (root : Fhandle) :
    Server Fs → List Issued → Except Stop (List Answer × Server Fs)
  | server, [] => .ok ([], server)
  | server, issued :: rest => do
      let (returned, next) ← issued.call.pathCall.alone
        ⟨kernel, issued.leftover, issued.following⟩ root server
      let (answers, final) ← remoteRun kernel root next rest
      return (answerOf returned issued.call :: answers, final)

/-- The handles a call may draw. -/
def TreeCall.draws : TreeCall → Nat
  | .getattr names _ | .openFile names _ | .unlink names | .rmdir names
  | .rename names _ => names.length + 1
  | .create _ _ _ | .mkdir _ _ => 1

/-! ## A call takes effect -/

/-- With nobody in between, a call takes effect while it runs. -/
theorem alone_takesEffect {link : Link Fs} {files : Fs → Files}
    (onTree : OnTree link.kernel files) {root : Fhandle} {call : PathCall}
    {server after : Server Fs} {pairs : CString ≃. Fhandle}
    (rooted : Rooted root server pairs) {returned : Returned}
    (called : call.alone link root server = .ok (returned, after)) :
    TakesEffect call (files server.fs) (.ok returned) (files after.fs) := by
  have ready : Ready root server :=
    ⟨⟨pairs, rooted.fresh⟩, standsFor_of_pair rooted.fresh rooted.rootPair⟩
  have settles := settlesCalls onTree root
  have begins := settles.begins server ⟨call, link.following⟩ ready
  rw [← run_dialogue, returnedOf] at called
  obtain ⟨⟨result, final⟩, ran, called⟩ := bind_eq_ok.mp called
  obtain ⟨given, done, called⟩ := bind_eq_ok.mp called
  cases called
  cases done
  refine settles_run settles ?_ ready begins ran
  intro query server reply next served
  refine ⟨link.leftover query.number, ?_⟩
  have asked : sendRequest ⟨link.kernel, link.leftover query.number⟩ query.type
      query.message server = .ok (reply, next) := served
  simp only [clients, asked]
  rfl

/-! ## A call succeeds when it can -/

/-- A call that comes to an end, and to success if `allowed`. -/
def Finishes (root : Fhandle) (draws : Nat) (allowed : Prop) (server : Server Fs)
    (outcome : Except Stop (Returned × Server Fs)) : Prop :=
  ∃ returned after more, outcome = .ok (returned, after) ∧ Rooted root after more ∧
    server.draws.length ≤ after.draws.length + draws ∧ (allowed → returned.code = 0)

section Completes

variable {link : Link Fs} {files : Fs → Files} {root : Fhandle} {server : Server Fs}
  {pairs : CString ≃. Fhandle}

/-- The last request of a call. -/
theorem finishes_of_answers (onTree : OnTree link.kernel files)
    (rooted : Rooted root server pairs) {number : Nat} {type : MsgType} {message : Bytes}
    {allowed : Prop} {expected : Reply → Prop}
    (answers : Answers (link.env number) message type allowed expected server)
    {next : Option Reply → ClientDialogue (Except Stop Returned)}
    (ends : ∀ reply, ∃ returned, next reply = .done (.ok returned))
    (succeeds : ∀ reply returned, expected reply →
      next (some reply) = .done (.ok returned) → returned.code = 0) :
    Finishes root 1 allowed server
      (returnedOf ((Dialogue.ask ⟨number, type, message⟩ next).run (serveQuery link)
        server)) := by
  obtain ⟨reply, after, replied, given⟩ := answers
  obtain ⟨returned, done⟩ := ends reply
  obtain ⟨more, serves⟩ :=
    serves_of_serve onTree rooted (serve_of_sendRequest replied)
  refine ⟨returned, after, more, ?_, serves.rooted, serves.drawn, ?_⟩
  · have served : serveQuery link ⟨number, type, message⟩ server = .ok (reply, after) :=
      replied
    rw [Dialogue.run, served]
    dsimp only [ok_bind]
    rw [done]
    rfl
  · intro isAllowed
    obtain ⟨asked, rfl, isExpected⟩ := given isAllowed
    exact succeeds asked returned isExpected done

/-- A walk of components, and the request behind it. -/
theorem walk_finishes (onTree : OnTree link.kernel files)
    (rooted : Rooted root server pairs) {names : List CString}
    (components : ∀ name ∈ names, Component name)
    (enough : names.length + 1 ≤ server.draws.length) {call : WalkCall} {allowed : Prop}
    (needs : allowed → (files server.fs).node (placeOf names) ≠ none)
    (last : ∀ handle next more, Rooted root next more →
      more (joinedPath names) = some handle → next.draws ≠ [] →
      files next.fs = files server.fs → (files server.fs).node (placeOf names) ≠ none →
      Finishes root 1 allowed next
        (returnedOf ((call.found link.following names.length handle).run
          (serveQuery link) next))) :
    Finishes root (names.length + 1) allowed server
      ((PathCall.walk (joinedPath names) call).alone link root server) := by
  have sameTokens := tokens_joinedPath components
  have supply : (tokens (joinedPath names)).length ≤ server.draws.length := by
    rw [sameTokens]
    omega
  obtain ⟨next, more, looked, outcome⟩ := lookup_walk
    (OnTree.standing onTree server.fs)
    rooted.fresh (.refl _) rooted.rootPair (short_of_component components)
    ((unnamed_le_length _ _ _).trans supply) 0
  have drawn := looked.drawn
  rw [sameTokens] at outcome drawn
  have same := looked.quiet.served_eq onTree.undisturbed
  have rootedNext : Rooted root next more :=
    ⟨looked.fresh, looked.kept _ _ rooted.rootPair⟩
  rcases outcome with ⟨resolves, handle, found, pair, _⟩ | ⟨misses, missed⟩
  · have here : (files server.fs).node (placeOf names) ≠ none := by
      have leads := resolves.1
      rw [leadsTo_joinedPath _ components] at leads
      simpa using leads
    have drawsLeft : next.draws ≠ [] := by
      intro empty
      rw [empty, List.length_nil] at drawn
      omega
    obtain ⟨returned, after, final, ran, rootedAfter, used, code⟩ :=
      last handle next more rootedNext pair drawsLeft same here
    have called := run_found link found call
    rw [sameTokens, ran] at called
    exact ⟨returned, after, final, called.symm, rootedAfter, by omega, code⟩
  · refine ⟨call.missed, next, more, ?_, rootedNext, by omega, ?_⟩
    · rw [← run_dialogue, run_walk, missed]
      rfl
    · intro isAllowed
      exact absurd (resolves_of_node components (needs isAllowed)) misses

theorem getattr_finishes (onTree : OnTree link.kernel files)
    (rooted : Rooted root server pairs) {names : List CString}
    (components : ∀ name ∈ names, Component name)
    (enough : names.length + 1 ≤ server.draws.length) (stbuf : Stat) :
    Finishes root (names.length + 1)
      ((files server.fs).node (placeOf names) ≠ none) server
      ((PathCall.walk (joinedPath names) (.getattr stbuf)).alone link root server) := by
  apply walk_finishes onTree rooted components enough id
  intro handle next more rootedNext pair _ same here
  refine finishes_of_answers onTree rootedNext
    ((getattr_answers onTree rootedNext.fresh pair noGap []).of_imp ?_) ?_ ?_
  · intro _
    rw [same, leadsTo_joinedPath _ components]
    simpa using here
  · intro reply
    cases reply with
    | none => exact ⟨_, rfl⟩
    | some reply => cases reply <;> exact ⟨_, rfl⟩
  · rintro _ returned ⟨attributes, rfl⟩ done
    cases done
    rfl

theorem openFile_finishes (onTree : OnTree link.kernel files)
    (rooted : Rooted root server pairs) {names : List CString}
    (components : ∀ name ∈ names, Component name)
    (enough : names.length + 1 ≤ server.draws.length) (fh : Fhandle) :
    Finishes root (names.length + 1)
      ((files server.fs).node (placeOf names) ≠ none) server
      ((PathCall.walk (joinedPath names) (.openFile fh)).alone link root server) := by
  apply walk_finishes onTree rooted components enough id
  intro handle next more rootedNext _ _ _ _
  exact ⟨_, next, more, rfl, rootedNext, by omega, fun _ => rfl⟩

theorem remove_finishes (complies : Complies link.kernel files)
    (rooted : Rooted root server pairs) {names : List CString}
    (components : ∀ name ∈ names, Component name)
    (enough : names.length + 1 ≤ server.draws.length) {call : WalkCall} {isDir : UInt8}
    (removes : ∀ request handle, call.found link.following request handle =
      removeDialogue isDir link.following request handle) :
    Finishes root (names.length + 1)
      (filesAfter (files server.fs) (removal isDir (joinedPath names)) ≠ none) server
      ((PathCall.walk (joinedPath names) call).alone link root server) := by
  apply walk_finishes complies.onTree rooted components enough
  · intro allowed
    obtain ⟨later, allowed⟩ := Option.ne_none_iff_exists'.mp allowed
    have leads := leadsTo_of_removal allowed
    rw [leadsTo_joinedPath _ components] at leads
    intro missing
    rw [missing] at leads
    cases leads
  · intro handle next more rootedNext pair _ same _
    rw [removes]
    refine finishes_of_answers complies.onTree rootedNext
      ((remove_answers complies rootedNext.fresh pair isDir _ []).of_imp ?_) ?_ ?_
    · rw [same]
      exact id
    · intro reply
      cases reply <;> exact ⟨_, rfl⟩
    · rintro _ returned rfl done
      cases done
      rfl

theorem rename_finishes (complies : Complies link.kernel files)
    (rooted : Rooted root server pairs) {names : List CString}
    (components : ∀ name ∈ names, Component name)
    (enough : names.length + 1 ≤ server.draws.length) (newpath : CString) :
    Finishes root (names.length + 1) (filesAfter (files server.fs)
        (.rename (joinedPath names) (CString.sent newpath)) ≠ none) server
      ((PathCall.walk (joinedPath names) (.rename newpath)).alone link root server) := by
  apply walk_finishes complies.onTree rooted components enough
  · intro allowed
    obtain ⟨later, allowed⟩ := Option.ne_none_iff_exists'.mp allowed
    have here := (rename_of_filesAfter allowed).2.1
    rw [locationOf_joinedPath components] at here
    exact here
  · intro handle next more rootedNext pair drawsLeft same _
    refine finishes_of_answers complies.onTree rootedNext
      ((rename_answers complies rootedNext.fresh pair drawsLeft newpath _).of_imp ?_)
      ?_ ?_
    · rw [same]
      exact id
    · intro reply
      cases reply <;> exact ⟨_, rfl⟩
    · rintro _ returned ⟨given, rfl⟩ done
      cases done
      rfl

theorem create_finishes (complies : Complies link.kernel files)
    (rooted : Rooted root server pairs) (enough : 1 ≤ server.draws.length)
    (path : CString) (mode : UInt32) (fh : Fhandle) :
    Finishes root 1 (path ≠ rootPath ∧
        filesAfter (files server.fs) (.creat (CString.sent path) mode) ≠ none) server
      ((PathCall.create path mode fh).alone link root server) := by
  rw [← run_dialogue, PathCall.dialogue]
  by_cases isRoot : path = rootPath
  · rw [if_pos isRoot]
    exact ⟨_, server, pairs, rfl, rooted, by omega, fun allowed => absurd isRoot allowed.1⟩
  · rw [if_neg isRoot]
    have served := serve_createMessage (link.env 0) path (link.following 0) mode server
    have answers : Answers (link.env 0) (createMessage path (link.following 0) mode)
        .create (filesAfter (files server.fs) (.creat (CString.sent path) mode) ≠ none)
        (fun reply => ∃ given, reply = .create given) server :=
      make_answers complies rooted.fresh (List.ne_nil_of_length_pos enough) served rfl
        (fun _ => rfl) (by decide)
    refine finishes_of_answers complies.onTree rooted (answers.of_imp And.right) ?_ ?_
    · intro reply
      cases reply with
      | none => exact ⟨_, rfl⟩
      | some reply => cases reply <;> exact ⟨_, rfl⟩
    · rintro _ returned ⟨given, rfl⟩ done
      cases done
      rfl

theorem mkdir_finishes (complies : Complies link.kernel files)
    (rooted : Rooted root server pairs) (enough : 1 ≤ server.draws.length)
    (path : CString) (mode : UInt32) :
    Finishes root 1 (path ≠ rootPath ∧ filesAfter (files server.fs)
        (.mkdir (CString.sent path) (mode ||| sIfdir)) ≠ none) server
      ((PathCall.mkdir path mode).alone link root server) := by
  rw [← run_dialogue, PathCall.dialogue]
  by_cases isRoot : path = rootPath
  · rw [if_pos isRoot]
    exact ⟨_, server, pairs, rfl, rooted, by omega, fun allowed => absurd isRoot allowed.1⟩
  · rw [if_neg isRoot]
    have served :=
      serve_mkdirMessage (link.env 0) path (link.following 0) (mode ||| sIfdir) server
    have answers : Answers (link.env 0)
        (mkdirMessage path (link.following 0) (mode ||| sIfdir)) .mkdir
        (filesAfter (files server.fs)
          (.mkdir (CString.sent path) (mode ||| sIfdir)) ≠ none)
        (fun reply => ∃ given, reply = .mkdir given) server :=
      make_answers complies rooted.fresh (List.ne_nil_of_length_pos enough) served rfl
        (fun _ => rfl) (by decide)
    refine finishes_of_answers complies.onTree rooted (answers.of_imp And.right) ?_ ?_
    · intro reply
      cases reply <;> exact ⟨_, rfl⟩
    · rintro _ returned ⟨given, rfl⟩ done
      cases done
      rfl

/-! ## One call -/

/-- The answer and the tree are those of the local call. -/
def Agrees (files : Fs → Files) (root : Fhandle) (call : TreeCall)
    (server : Server Fs) (outcome : Except Stop (Returned × Server Fs)) : Prop :=
  ∃ returned after more, outcome = .ok (returned, after) ∧
    localStep (files server.fs) call = (answerOf returned call, files after.fs) ∧
    Rooted root after more ∧ server.draws.length ≤ after.draws.length + call.draws

theorem filesAfter_of_takesEffect {pathCall : PathCall} {before after : Files}
    {returned : Returned} (effect : TakesEffect pathCall before (.ok returned) after)
    (code : returned.code = 0) :
    filesAfter before (localCall pathCall) = some after ∧
      CallFound before pathCall returned.output := by
  rw [TakesEffect, if_pos code] at effect
  exact effect

theorem same_of_takesEffect {pathCall : PathCall} {before after : Files}
    {returned : Returned} (effect : TakesEffect pathCall before (.ok returned) after)
    (code : returned.code ≠ 0) : after = before := by
  rw [TakesEffect, if_neg code] at effect
  exact effect

/-- A call that changes names. -/
theorem changed_agrees {pathCall : PathCall} {call : Call} {before after : Files}
    {returned : Returned} (effect : TakesEffect pathCall before (.ok returned) after)
    (same : localCall pathCall = call)
    (succeeds : filesAfter before call ≠ none → returned.code = 0) :
    localStep.changed before call =
      (if returned.code = 0 then .done else .failed, after) := by
  rw [localStep.changed]
  by_cases code : returned.code = 0
  · have changed := (filesAfter_of_takesEffect effect code).1
    rw [same] at changed
    simp [changed, code]
  · have refused : filesAfter before call = none := by
      by_contra allowed
      exact code (succeeds allowed)
    simp [refused, code, same_of_takesEffect effect code]

theorem walkedPath_joinedPath {names : List CString}
    (components : ∀ name ∈ names, Component name) :
    walkedPath (joinedPath names) = joinedPath names := by
  rw [walkedPath_of_short (short_of_component components), tokens_joinedPath components]

/-- `snfs_getattr` gives back a `struct stat`. -/
theorem attributes_of_getattr {path : CString} {stbuf : Stat} {returned : Returned}
    {after : Server Fs}
    (called : (PathCall.walk path (.getattr stbuf)).alone link root server =
      .ok (returned, after)) : ∃ st, returned.output = .attributes st := by
  rw [PathCall.alone] at called
  obtain ⟨⟨⟨code, st⟩, next⟩, _, called⟩ := bind_eq_ok.mp called
  cases called
  exact ⟨st, rfl⟩

theorem getattr_agrees {names : List CString}
    (components : ∀ name ∈ names, Component name) {stbuf : Stat} {before after : Files}
    {code : Int} {st : Stat}
    (effect : TakesEffect (.walk (joinedPath names) (.getattr stbuf)) before
      (.ok ⟨code, .attributes st⟩) after)
    (succeeds : before.node (placeOf names) ≠ none → code = 0) :
    localStep before (.getattr names stbuf) =
      (if code = 0 then .found (sIsdir st.mode) else .failed, after) := by
  by_cases isZero : code = 0
  · obtain ⟨same, found⟩ := filesAfter_of_takesEffect effect isZero
    cases same
    rw [CallFound, WalkFound, walkedPath_joinedPath components,
      leadsTo_joinedPath _ components] at found
    obtain ⟨node, here, isDir⟩ := Option.map_eq_some_iff.mp found
    simp [localStep, here, isZero, isDir]
  · have missing : before.node (placeOf names) = none := by
      by_contra here
      exact isZero (succeeds here)
    simp [localStep, missing, isZero, same_of_takesEffect effect isZero]

theorem openFile_agrees {names : List CString}
    (components : ∀ name ∈ names, Component name) {fh : Fhandle} {before after : Files}
    {returned : Returned}
    (effect : TakesEffect (.walk (joinedPath names) (.openFile fh)) before
      (.ok returned) after)
    (succeeds : before.node (placeOf names) ≠ none → returned.code = 0) :
    localStep before (.openFile names fh) =
      (if returned.code = 0 then .done else .failed, after) := by
  by_cases code : returned.code = 0
  · obtain ⟨same, found⟩ := filesAfter_of_takesEffect effect code
    cases same
    have found : leadsTo before (walkedPath (joinedPath names)) ≠ none := found
    rw [walkedPath_joinedPath components, leadsTo_joinedPath _ components] at found
    obtain ⟨isDir, leads⟩ := Option.ne_none_iff_exists'.mp found
    obtain ⟨node, here, _⟩ := Option.map_eq_some_iff.mp leads
    simp [localStep, here, code]
  · have missing : before.node (placeOf names) = none := by
      by_contra here
      exact code (succeeds here)
    simp [localStep, missing, code, same_of_takesEffect effect code]

/-- From success in the right cases and an effect at once. -/
theorem agrees_of_finishes (onTree : OnTree link.kernel files)
    (rooted : Rooted root server pairs) {call : TreeCall} {allowed : Prop}
    (finishes : Finishes root call.draws allowed server
      (call.pathCall.alone link root server))
    (agrees : ∀ returned after, call.pathCall.alone link root server =
        .ok (returned, after) →
      TakesEffect call.pathCall (files server.fs) (.ok returned) (files after.fs) →
      (allowed → returned.code = 0) →
      localStep (files server.fs) call = (answerOf returned call, files after.fs)) :
    Agrees files root call server (call.pathCall.alone link root server) := by
  obtain ⟨returned, after, more, called, rootedAfter, drawn, succeeds⟩ := finishes
  exact ⟨returned, after, more, called,
    agrees returned after called (alone_takesEffect onTree rooted called) succeeds,
    rootedAfter, drawn⟩

theorem filesAfter_creat_rootPath (before : Files) (mode : UInt32) :
    filesAfter before (.creat rootPath mode) = none := by
  have slashed : (pathOf rootPath).slash = true := rfl
  simp [filesAfter, DirTree.creat, slashed]

theorem filesAfter_mkdir_rootPath (before : Files) (mode : UInt32) :
    filesAfter before (.mkdir rootPath mode) = none := by
  simp [filesAfter, DirTree.mkdir, DirTree.entry, steps_rootPath]

theorem call_agrees (complies : Complies link.kernel files)
    (rooted : Rooted root server pairs) {call : TreeCall} (wellFormed : call.WellFormed)
    (enough : call.draws ≤ server.draws.length) :
    Agrees files root call server (call.pathCall.alone link root server) := by
  have onTree := complies.onTree
  cases call with
  | getattr names stbuf =>
      refine agrees_of_finishes onTree rooted
        (getattr_finishes onTree rooted wellFormed enough stbuf) ?_
      intro returned after called effect succeeds
      obtain ⟨st, output⟩ := attributes_of_getattr called
      obtain ⟨code, output⟩ := returned
      cases output
      exact getattr_agrees wellFormed effect succeeds
  | openFile names fh =>
      refine agrees_of_finishes onTree rooted
        (openFile_finishes onTree rooted wellFormed enough fh) ?_
      intro returned after _ effect succeeds
      exact openFile_agrees wellFormed effect succeeds
  | create names mode fh =>
      obtain ⟨components, fits⟩ := wellFormed
      refine agrees_of_finishes onTree rooted
        (create_finishes complies rooted enough (joinedPath names) mode fh) ?_
      intro returned after _ effect succeeds
      rw [sent_of_short fits] at succeeds
      refine changed_agrees effect (congrArg (Call.creat · mode) (sent_of_short fits)) ?_
      intro allowed
      refine succeeds ⟨?_, allowed⟩
      intro isRoot
      rw [isRoot] at allowed
      exact allowed (filesAfter_creat_rootPath _ mode)
  | mkdir names mode =>
      obtain ⟨components, fits⟩ := wellFormed
      refine agrees_of_finishes onTree rooted
        (mkdir_finishes complies rooted enough (joinedPath names) mode) ?_
      intro returned after _ effect succeeds
      rw [sent_of_short fits] at succeeds
      refine changed_agrees effect
        (congrArg (Call.mkdir · (mode ||| sIfdir)) (sent_of_short fits)) ?_
      intro allowed
      refine succeeds ⟨?_, allowed⟩
      intro isRoot
      rw [isRoot] at allowed
      exact allowed (filesAfter_mkdir_rootPath _ _)
  | unlink names =>
      refine agrees_of_finishes onTree rooted
        (remove_finishes complies rooted wellFormed enough fun _ _ => rfl) ?_
      intro returned after _ effect succeeds
      exact changed_agrees effect
        (congrArg Call.unlink (walkedPath_joinedPath wellFormed)) succeeds
  | rmdir names =>
      refine agrees_of_finishes onTree rooted
        (remove_finishes complies rooted wellFormed enough fun _ _ => rfl) ?_
      intro returned after _ effect succeeds
      exact changed_agrees effect
        (congrArg Call.rmdir (walkedPath_joinedPath wellFormed)) succeeds
  | rename oldNames newNames =>
      obtain ⟨components, fits⟩ := wellFormed
      refine agrees_of_finishes onTree rooted
        (rename_finishes complies rooted components enough (joinedPath newNames)) ?_
      intro returned after _ effect succeeds
      rw [sent_of_short fits] at succeeds
      refine changed_agrees effect ?_ succeeds
      exact congrArg₂ Call.rename (walkedPath_joinedPath components) (sent_of_short fits)

/-! ## All calls -/

theorem run_agrees {kernel : Kernel Fs} (complies : Complies kernel files)
    {calls : List Issued} (wellFormed : ∀ issued ∈ calls, issued.call.WellFormed)
    (rooted : Rooted root server pairs)
    (enough : (calls.map fun issued => issued.call.draws).sum ≤ server.draws.length) :
    ∃ answers final, remoteRun kernel root server calls = .ok (answers, final) ∧
      localRun (files server.fs) (calls.map Issued.call) =
        (answers, files final.fs) := by
  induction calls generalizing server pairs with
  | nil => exact ⟨[], server, rfl, rfl⟩
  | cons issued rest inductionHypothesis =>
      rw [List.map_cons, List.sum_cons] at enough
      obtain ⟨returned, next, more, called, agrees, rootedNext, drawn⟩ :=
        @call_agrees Fs ⟨kernel, issued.leftover, issued.following⟩ files root server
          pairs complies rooted issued.call (wellFormed issued List.mem_cons_self)
          (by omega)
      obtain ⟨answers, final, ran, same⟩ := inductionHypothesis
        (fun other member => wellFormed other (List.mem_cons_of_mem _ member)) rootedNext
        (by omega)
      refine ⟨answerOf returned issued.call :: answers, final, ?_, ?_⟩
      · simp only [remoteRun, called, ok_bind, ran]
        rfl
      · simp only [List.map_cons, localRun, agrees, same]

end Completes

/-- Whatever a client calls on a tree that it has mounted and has to itself, it gets
the answers of the local calls and leaves the local tree. -/
theorem remote_tree_is_local {kernel : Kernel Fs} {files : Fs → Files}
    (complies : Complies kernel files) (fs : Fs) {draws : List Fhandle}
    (nodup : draws.Nodup) (apart : ∀ draw ∈ draws, SpellsNoName draw)
    {events : List (ServeLoop.Event Fs)} {before server : Server Fs}
    (earlier : runLabels (step kernel) (started fs draws) events = some before)
    {leftover : Leftover} {root : Fhandle}
    (mounted : serverMount ⟨kernel, leftover⟩ before = .ok (some root, server))
    {calls : List Issued} (wellFormed : ∀ issued ∈ calls, issued.call.WellFormed)
    (enough : (calls.map fun issued => issued.call.draws).sum ≤ server.draws.length) :
    ∃ answers final, remoteRun kernel root server calls = .ok (answers, final) ∧
      localRun (files server.fs) (calls.map Issued.call) =
        (answers, files final.fs) := by
  obtain ⟨pairs, fresh⟩ := run_fresh nodup apart earlier
  obtain ⟨more, freshMounted, rootPair⟩ := serverMount_root fresh mounted
  exact run_agrees complies wellFormed ⟨freshMounted, rootPair⟩ enough

/-! A directory `/b` is made, `/a` is moved to `/b/a` and found there. -/

def movedDraws : List Fhandle := [7, 9, 11, 13, 15, 17, 19]

theorem movedDraws_apart : ∀ draw ∈ movedDraws, SpellsNoName draw := by
  intro draw member
  apply spellsNoName_of_zero
  simp only [movedDraws, List.mem_cons, List.not_mem_nil, or_false] at member
  rcases member with rfl | rfl | rfl | rfl | rfl | rfl | rfl <;> decide

def issuedAlone (call : TreeCall) : Issued := ⟨call, fun _ => noLeftover, noFollowing⟩

def emptyStat : Stat := ⟨0, 0, 0, 0, 0, 0, 0, 0, 0, 0, 0⟩

def moveAndLook : List Issued :=
  [issuedAlone (.mkdir [nameB] 0), issuedAlone (.rename [nameA] [nameB, nameA]),
    issuedAlone (.getattr [nameB, nameA] emptyStat)]

theorem moveAndLook_wellFormed :
    ∀ issued ∈ moveAndLook, issued.call.WellFormed := by
  have components : ∀ name ∈ [nameB, nameA], Component name := by
    simp [component_nameA, component_nameB]
  intro issued member
  simp only [moveAndLook, issuedAlone, List.mem_cons, List.not_mem_nil, or_false]
    at member
  rcases member with rfl | rfl | rfl
  · refine ⟨?_, ?_⟩
    · simp [component_nameB]
    · rw [PathAgreement.Fits]
      decide
  · refine ⟨?_, ?_⟩
    · simp [component_nameA]
    · rw [PathAgreement.Fits]
      decide
  · exact components

theorem remote_tree_is_local_moveAndLook : ∃ server final,
    serverMount ⟨treeKernel, noLeftover⟩ (started onlyFileA movedDraws) =
      .ok (some 7, server) ∧
    remoteRun treeKernel 7 server moveAndLook =
      .ok ([.done, .done, .found false], final) := by
  have earlier : runLabels (step treeKernel) (started onlyFileA movedDraws) [] =
      some (started onlyFileA movedDraws) := rfl
  obtain ⟨server, mounted, sameFs, draws⟩ : ∃ server,
      serverMount ⟨treeKernel, noLeftover⟩ (started onlyFileA movedDraws) =
        .ok (some 7, server) ∧ server.fs = onlyFileA ∧ server.draws.length = 6 :=
    ⟨_, rfl, rfl, rfl⟩
  obtain ⟨answers, final, ran, same⟩ := remote_tree_is_local treeKernel_complies onlyFileA
    (by decide) movedDraws_apart earlier mounted moveAndLook_wellFormed
    (by rw [draws]; decide)
  have expected : (localRun onlyFileA (moveAndLook.map Issued.call)).1 =
      [.done, .done, .found false] := rfl
  rw [id, sameFs] at same
  rw [same] at expected
  cases expected
  exact ⟨server, final, mounted, ran⟩

end ChlorosSnfs.Snfs.RemoteTree
