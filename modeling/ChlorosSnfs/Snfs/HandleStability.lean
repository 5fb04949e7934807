import ChlorosSnfs.Snfs.ErrorReplies

/-!
# Handles stay valid

A request names a file by its handle and the database removes a name by its
path.  Since the database is a bijection, removing the path of a handle takes
that handle and no other; every other handle leads where it led, through any
sequence of requests.
-/

set_option autoImplicit false

namespace ChlorosSnfs.Snfs.HandleStability

open ChlorosSnfs.Library.FileTree
open ChlorosSnfs.Library.Runs
open ChlorosSnfs.Snfs.Fhandledb
open ChlorosSnfs.Snfs.FhandledbRefinement (Refines)
open ChlorosSnfs.Snfs.Messages
open ChlorosSnfs.Snfs.Syscalls
open ChlorosSnfs.Snfs.Handlers
open ChlorosSnfs.Snfs.ServeLoop
open ChlorosSnfs.Snfs.HandlerEffects
open ChlorosSnfs.Snfs.ServerDatabase
open ChlorosSnfs.Snfs.ErrorReplies
open ChlorosSnfs.Snfs.TreeKernel

variable {Fs : Type}

/-- The request is a REMOVE or RENAME of this handle and has succeeded. -/
def Releases (message : Bytes) (handle : Fhandle) (before after : Server Fs) :
    Prop :=
  (messageType message = .ok .remove ∧ (removeArgs message).fh = .ok handle ∧
    ∃ size, after.sent = (.remove, size) :: before.sent) ∨
  (messageType message = .ok .rename ∧ (renameArgs message).fh = .ok handle ∧
    ∃ newHandle size, after.sent = (.rename newHandle, size) :: before.sent)

def ReleasingStep (kernel : Kernel Fs) (handle : Fhandle) (server : Server Fs) :
    Event Fs → Prop
  | .external _ => False
  | .request message leftover =>
      ∃ next, step kernel server (.request message leftover) = some next ∧
        Releases message handle server next

/-- The requests that give out a handle without taking one back. -/
def givesHandle : MsgType → Bool
  | .mount => true
  | .lookup => true
  | .create => true
  | .mkdir => true
  | _ => false

/-- What the next request does to the database of a server. -/
structure StableNext (env : Env Fs) (message : Bytes) (server next : Server Fs) :
    Prop where
  kept : ∀ handle value, getFile server.db handle = some value →
    ¬ Releases message handle server next →
      getFile next.db handle = some value
  released : ∀ handle, Releases message handle server next →
    getFile next.db handle = none
  untouched : ∀ type, messageType message = .ok type →
    MsgType.leavesDatabase type = true → next.db = server.db
  added : ∀ type, messageType message = .ok type → givesHandle type = true →
    AddsAtMostOne server.db next.db
  mounted : messageType message = .ok .mount →
    ∀ root size, next.sent = (.mount root, size) :: server.sent →
      getFile next.db root = some rootPath.key

/-- The kernel lets nobody remove or rename `/`, now and after looking around. -/
def RefusesRoot (kernel : Kernel Fs) (fs : Fs) : Prop :=
  ∀ after, Quiet kernel fs after →
    (kernel (.rmdir rootPath) after).1 ≠ .ok () ∧
    (kernel (.unlink rootPath) after).1 ≠ .ok () ∧
    ∀ newPath, (kernel (.rename rootPath newPath) after).1 ≠ .ok ()

/-! ## One request -/

theorem sent_unique {before after : Server Fs} {reply other : Reply}
    {size otherSize : Nat} (sent : after.sent = (reply, size) :: before.sent)
    (alsoSent : after.sent = (other, otherSize) :: before.sent) :
    reply = other := by
  obtain ⟨same, _⟩ := List.cons.inj (sent.symm.trans alsoSent)
  exact (Prod.mk.inj same).1

theorem not_releases_of_error {message : Bytes} {handle : Fhandle}
    {before after : Server Fs} {error : SnfsError} {size : Nat}
    (sent : after.sent = (.error error, size) :: before.sent) :
    ¬ Releases message handle before after := by
  rintro (⟨_, _, otherSize, alsoSent⟩ | ⟨_, _, newHandle, otherSize, alsoSent⟩)
  · cases sent_unique sent alsoSent
  · cases sent_unique sent alsoSent

theorem type_unique {message : Bytes} {type other : MsgType}
    (named : messageType message = .ok type)
    (alsoNamed : messageType message = .ok other) : type = other :=
  Except.ok.inj (named.symm.trans alsoNamed)

theorem adds_of_ending {env : Env Fs} {message : Bytes}
    {before after : Server Fs} {type : MsgType}
    (notRemove : type ≠ .remove) (notRename : type ≠ .rename)
    (ending : Ending env message before after type) :
    AddsAtMostOne before.db after.db := by
  cases ending with
  | refused refused => exact Or.inl refused.db
  | answered leaves answered => exact Or.inl answered.db
  | mounted root named fs sent => exact addsAtMostOne_of_called named.inserted
  | lookedUp dirPath filename handle found =>
      exact addsAtMostOne_of_called found.named.inserted
  | created path handle made sent =>
      exact addsAtMostOne_of_called made.named.inserted
  | madeDirectory path handle made sent =>
      exact addsAtMostOne_of_called made.named.inserted
  | unlinked handle path removed gone => exact absurd rfl notRemove
  | moved handle oldPath newPath newHandle removed moved =>
      exact absurd rfl notRename

/-- The handle a successful REMOVE or RENAME was given, and the database after
it. -/
theorem taken_of_ending {env : Env Fs} {message : Bytes}
    {before after : Server Fs} {type : MsgType} {pairs : CString ≃. Fhandle}
    (refines : Refines before.db pairs)
    (ending : Ending env message before after type)
    (either : type = .remove ∨ type = .rename) :
    Refused env before after ∨ ∃ handle path middle,
      pairs path = some handle ∧ AddsAtMostOne before.db middle ∧
      after.db = unpaired middle path handle ∧
      ((type = .remove ∧ (removeArgs message).fh = .ok handle ∧
          ∃ size, after.sent = (.remove, size) :: before.sent) ∨
        (type = .rename ∧ (renameArgs message).fh = .ok handle ∧
          ∃ newHandle size,
            after.sent = (.rename newHandle, size) :: before.sent)) := by
  cases ending with
  | refused refused => exact Or.inl refused
  | answered leaves answered =>
      rcases either with rfl | rfl
      · cases leaves
      · cases leaves
  | mounted root named fs sent => rcases either with other | other <;> cases other
  | lookedUp dirPath filename handle found =>
      rcases either with other | other <;> cases other
  | created path handle made sent =>
      rcases either with other | other <;> cases other
  | madeDirectory path handle made sent =>
      rcases either with other | other <;> cases other
  | unlinked handle path removed gone =>
      obtain ⟨rfl, result⟩ := unlinked_removed refines gone
      have stored := gone.stored
      rw [storedPath_eq_of_refines refines] at stored
      exact Or.inr ⟨handle, path, before.db, pairs.eq_some_iff.mp stored,
        Or.inl rfl, result, Or.inl ⟨rfl, gone.fhRead, _, gone.sent⟩⟩
  | moved handle oldPath newPath newHandle removed moved =>
      obtain ⟨rfl, middle, inserted, result⟩ := moved_removed refines moved
      have stored := moved.stored
      rw [storedPath_eq_of_refines refines] at stored
      exact Or.inr ⟨handle, oldPath, middle, pairs.eq_some_iff.mp stored,
        addsAtMostOne_of_called inserted, result,
        Or.inr ⟨rfl, moved.fhRead, _, _, moved.sent⟩⟩

theorem Named.getFile_root {env : Env Fs} {root : Fhandle}
    {before after : Server Fs} {pairs : CString ≃. Fhandle}
    (refines : Refines before.db pairs)
    (named : Named env rootPath root before after) :
    getFile after.db root = some rootPath.key := by
  rcases nameFindOrInsert_eq_some named.inserted with
    ⟨value, known, read, same, _⟩ | ⟨_, _, written⟩
  · rw [refines.db_key (by decide)] at known
    obtain ⟨handle, pair, rfl⟩ := Option.map_eq_some_iff.mp known
    rw [readHandle_handleBytes] at read
    rw [read, same]
    exact refines.holds.map_handleKey pair
  · rw [written]
    exact getFile_paired_self before.db rootPath root

theorem stableNext_of_serve {env : Env Fs} {message : Bytes}
    {server next : Server Fs} (bijective : Bijective server)
    (handled : serve env message server = .ok next) :
    StableNext env message server next := by
  obtain ⟨pairs, refines⟩ := bijective
  obtain ⟨type, named, ending⟩ := serve_ending handled
  constructor
  · intro handle value stored notReleased
    by_cases either : type = .remove ∨ type = .rename
    · rcases taken_of_ending refines ending either with
        refused | ⟨taken, path, middle, pair, adds, result, released⟩
      · rw [refused.db]
        exact stored
      · have different : handle ≠ taken := by
          rintro rfl
          apply notReleased
          rcases released with ⟨rfl, read⟩ | ⟨rfl, read⟩
          · exact Or.inl ⟨named, read⟩
          · exact Or.inr ⟨named, read⟩
        rw [result, getFile_unpaired_other
          (refines.notSeven path taken pair) different]
        exact adds.getFile_eq stored
    · exact (adds_of_ending (fun same => either (Or.inl same))
        (fun same => either (Or.inr same)) ending).getFile_eq stored
  · intro handle releases
    have either : type = .remove ∨ type = .rename := by
      rcases releases with ⟨isRemove, _⟩ | ⟨isRename, _⟩
      · exact Or.inl (type_unique named isRemove)
      · exact Or.inr (type_unique named isRename)
    rcases taken_of_ending refines ending either with
      refused | ⟨taken, path, middle, pair, adds, result, released⟩
    · obtain ⟨error, sent⟩ := refused.reply
      exact absurd releases (not_releases_of_error sent)
    · have same : handle = taken := by
        rcases releases with ⟨isRemove, read, _⟩ | ⟨isRename, read, _⟩
        · rcases released with ⟨_, alsoRead, _⟩ | ⟨isRename, _⟩
          · exact Except.ok.inj (read.symm.trans alsoRead)
          · rw [isRename] at named
            cases type_unique named isRemove
        · rcases released with ⟨isRemove, _⟩ | ⟨_, alsoRead, _⟩
          · rw [isRemove] at named
            cases type_unique named isRename
          · exact Except.ok.inj (read.symm.trans alsoRead)
      rw [same, result]
      exact getFile_unpaired_self middle path taken
  · intro other otherNamed leaves
    cases type_unique named otherNamed
    cases ending with
    | refused refused => exact refused.db
    | answered _ answered => exact answered.db
    | _ => cases leaves
  · intro other otherNamed gives
    cases type_unique named otherNamed
    apply adds_of_ending _ _ ending
    · rintro rfl
      cases gives
    · rintro rfl
      cases gives
  · intro isMount root size sent
    cases type_unique named isMount
    cases ending with
    | refused refused =>
        obtain ⟨error, alsoSent⟩ := refused.reply
        cases sent_unique sent alsoSent
    | answered leaves _ => cases leaves
    | mounted given givenNamed _ alsoSent =>
        cases sent_unique sent alsoSent
        exact Named.getFile_root refines givenNamed

/-- The handle of `/` is not released where the kernel refuses. -/
theorem not_releases_root {env : Env Fs} {message : Bytes}
    {server next : Server Fs} {root : Fhandle} (bijective : Bijective server)
    (stored : getFile server.db root = some rootPath.key)
    (refuses : RefusesRoot env.kernel server.fs)
    (handled : serve env message server = .ok next) :
    ¬ Releases message root server next := by
  obtain ⟨pairs, refines⟩ := bijective
  obtain ⟨type, named, ending⟩ := serve_ending handled
  have rootStored : storedPath server.db root = some rootPath := by
    rw [storedPath, stored, Option.bind_some, stringAt_key]
  rintro (⟨isRemove, read, size, sent⟩ | ⟨isRename, read, newHandle, size, sent⟩)
  · cases type_unique named isRemove
    cases ending with
    | refused refused =>
        obtain ⟨error, alsoSent⟩ := refused.reply
        cases sent_unique sent alsoSent
    | answered leaves _ => cases leaves
    | unlinked handle path removed gone =>
        cases Except.ok.inj (read.symm.trans gone.fhRead)
        cases Option.some.inj (rootStored.symm.trans gone.stored)
        obtain ⟨st, fs1, isDir, looked, _, removal⟩ := gone.unlinked
        have quiet : Quiet env.kernel server.fs fs1 := by
          have stat : Quiet env.kernel server.fs
              (env.kernel (.stat rootPath) server.fs).2 :=
            .readOnly (.refl server.fs) (.stat rootPath) rfl
          rw [looked] at stat
          exact stat
        obtain ⟨noRmdir, noUnlink, _⟩ := refuses fs1 quiet
        split at removal
        · exact noRmdir (by rw [removal.2])
        · exact noUnlink (by rw [removal])
  · cases type_unique named isRename
    cases ending with
    | refused refused =>
        obtain ⟨error, alsoSent⟩ := refused.reply
        cases sent_unique sent alsoSent
    | answered leaves _ => cases leaves
    | moved handle oldPath newPath _ removed moved =>
        cases Except.ok.inj (read.symm.trans moved.fhRead)
        cases Option.some.inj (rootStored.symm.trans moved.stored)
        obtain ⟨_, _, noRename⟩ := refuses server.fs (.refl server.fs)
        exact noRename newPath (by rw [moved.moved])

/-! ## Whole runs -/

/-- A bijective database in which the handle leads to these bytes. -/
structure Leads (handle : Fhandle) (value : Bytes) (server : Server Fs) : Prop where
  bijective : Bijective server
  stored : getFile server.db handle = some value

theorem step_stable {kernel : Kernel Fs} {server next : Server Fs}
    {event : Event Fs} {handle : Fhandle} {value : Bytes}
    (bijective : Bijective server)
    (stored : getFile server.db handle = some value)
    (notReleased : ¬ ReleasingStep kernel handle server event)
    (stepped : step kernel server event = some next) :
    getFile next.db handle = some value := by
  cases event with
  | external fs =>
      cases stepped
      exact stored
  | request message leftover =>
      have served := stepped
      rw [step] at served
      split at served
      · rename_i handled
        cases served
        exact (stableNext_of_serve bijective handled).kept handle value stored
          fun released => notReleased ⟨_, stepped, released⟩
      · cases served

theorem run_stable {kernel : Kernel Fs} {start final : Server Fs}
    {events : List (Event Fs)} {handle : Fhandle} {value : Bytes}
    (bijective : Bijective start) (neverSeven : NeverSeven kernel start events)
    (stored : getFile start.db handle = some value)
    (notReleased : EveryStep (step kernel)
      (fun server event => ¬ ReleasingStep kernel handle server event)
      start events)
    (run : runLabels (step kernel) start events = some final) :
    getFile final.db handle = some value := by
  have leads : Leads handle value start := ⟨bijective, stored⟩
  have atEnd : Leads handle value final := by
    refine invariant_of_guarded_run ?_ leads
      (neverSeven.everyStep.and notReleased) run
    intro server event next before guards stepped
    obtain ⟨⟨_, noSeven⟩, kept⟩ := guards
    exact ⟨step_bijective before.bijective stepped (noSeven next stepped),
      step_stable before.bijective before.stored kept stepped⟩
  exact atEnd.stored

theorem run_root_stable {kernel : Kernel Fs} {start final : Server Fs}
    {events : List (Event Fs)} {root : Fhandle}
    (bijective : Bijective start) (neverSeven : NeverSeven kernel start events)
    (stored : getFile start.db root = some rootPath.key)
    (refuses : EveryStep (step kernel)
      (fun server _ => RefusesRoot kernel server.fs) start events)
    (run : runLabels (step kernel) start events = some final) :
    getFile final.db root = some rootPath.key := by
  have leads : Leads root rootPath.key start := ⟨bijective, stored⟩
  have atEnd : Leads root rootPath.key final := by
    refine invariant_of_guarded_run ?_ leads
      (neverSeven.everyStep.and refuses) run
    intro server event next before guards stepped
    obtain ⟨⟨_, noSeven⟩, refusing⟩ := guards
    refine ⟨step_bijective before.bijective stepped (noSeven next stepped),
      step_stable before.bijective before.stored ?_ stepped⟩
    cases event with
    | external fs => exact id
    | request message leftover =>
        rintro ⟨after, again, released⟩
        rw [step] at again
        split at again
        · rename_i handled
          cases again
          exact not_releases_root before.bijective before.stored refusing
            handled released
        · cases again
  exact atEnd.stored

/-- A handle that leads nowhere leads somewhere only after it is drawn. -/
theorem called_drawn {beyond : Fhandle} {db next : Db}
    {draws rest : List Fhandle} {filename : CString} {handle : Fhandle}
    (called : nameFindOrInsert beyond db draws filename =
      some (handle, next, rest)) (noSeven : NoSevenStored next) :
    ∃ used, draws = used ++ rest ∧ ∀ other, getFile db other = none →
      other ∉ used → getFile next other = none := by
  rcases nameFindOrInsert_eq_some called with
    ⟨_, _, _, same, sameDraws⟩ | ⟨_, generated, written⟩
  · refine ⟨[], sameDraws.symm, ?_⟩
    intro other missing _
    rw [same]
    exact missing
  · obtain ⟨_, skipped, split, _⟩ := generateNewFhandle_eq_some generated
    have notSeven : filename.bytes.length ≠ 7 := by
      rw [written] at noSeven
      exact noSeven handle filename (getFile_paired_self db filename handle)
    refine ⟨skipped ++ [handle], by rw [split]; simp, ?_⟩
    intro other missing notUsed
    rw [written, getFile_paired,
      if_neg (key_ne_handleBytes notSeven other).symm, if_neg]
    · exact missing
    · rintro rfl
      exact notUsed (by simp)

theorem ending_drawn {env : Env Fs} {message : Bytes}
    {before after : Server Fs} {type : MsgType} (bijective : Bijective before)
    (ending : Ending env message before after type)
    (noSeven : NoSevenStored after.db) :
    ∃ used, before.draws = used ++ after.draws ∧
      ∀ handle, getFile before.db handle = none → handle ∉ used →
        getFile after.db handle = none := by
  obtain ⟨pairs, refines⟩ := bijective
  cases ending with
  | refused refused =>
      refine ⟨[], refused.draws.symm, ?_⟩
      intro handle missing _
      rw [refused.db]
      exact missing
  | answered leaves answered =>
      refine ⟨[], answered.draws.symm, ?_⟩
      intro handle missing _
      rw [answered.db]
      exact missing
  | mounted root named fs sent => exact called_drawn named.inserted noSeven
  | lookedUp dirPath filename handle found =>
      exact called_drawn found.named.inserted noSeven
  | created path handle made sent =>
      exact called_drawn made.named.inserted noSeven
  | madeDirectory path handle made sent =>
      exact called_drawn made.named.inserted noSeven
  | unlinked handle path removed gone =>
      refine ⟨[], gone.draws.symm, ?_⟩
      intro other missing _
      rw [(unlinked_removed refines gone).2, getFile_unpaired]
      split
      · rfl
      · split
        · rfl
        · exact missing
  | moved handle oldPath newPath newHandle removed moved =>
      obtain ⟨_, middle, inserted, result⟩ := moved_removed refines moved
      have stored := moved.stored
      rw [storedPath_eq_of_refines refines] at stored
      rw [result] at noSeven
      obtain ⟨used, split, missingStill⟩ := called_drawn inserted
        (noSevenStored_middle refines (pairs.eq_some_iff.mp stored)
          (addsAtMostOne_of_called inserted) noSeven)
      refine ⟨used, split, ?_⟩
      intro other missing notUsed
      rw [result, getFile_unpaired]
      split
      · rfl
      · split
        · rfl
        · exact missingStill other missing notUsed

theorem run_drawn {kernel : Kernel Fs} {start final : Server Fs}
    {events : List (Event Fs)} (bijective : Bijective start)
    (neverSeven : NeverSeven kernel start events)
    (run : runLabels (step kernel) start events = some final) :
    ∃ used, start.draws = used ++ final.draws ∧
      ∀ handle, getFile start.db handle = none → handle ∉ used →
        getFile final.db handle = none := by
  induction events generalizing start with
  | nil =>
      cases Option.some.inj run
      exact ⟨[], rfl, fun _ missing _ => missing⟩
  | cons event rest inductionHypothesis =>
      obtain ⟨next, first, remaining⟩ :=
        (runLabels_cons_eq_some _ start final event rest).mp run
      have noSeven := (neverSeven.2 next first).head
      obtain ⟨later, laterSplit, laterMissing⟩ := inductionHypothesis
        (step_bijective bijective first noSeven) (neverSeven.2 next first)
        remaining
      have now : ∃ used, start.draws = used ++ next.draws ∧
          ∀ handle, getFile start.db handle = none → handle ∉ used →
            getFile next.db handle = none := by
        cases event with
        | external fs =>
            cases first
            exact ⟨[], rfl, fun _ missing _ => missing⟩
        | request message leftover =>
            rw [step] at first
            split at first
            · rename_i handled
              cases first
              obtain ⟨_, _, ending⟩ := serve_ending handled
              exact ending_drawn bijective ending noSeven
            · cases first
      obtain ⟨used, split, missingNow⟩ := now
      refine ⟨used ++ later, by rw [split, laterSplit, List.append_assoc], ?_⟩
      intro handle missing notUsed
      rw [List.mem_append, not_or] at notUsed
      exact laterMissing handle (missingNow handle missing notUsed.1) notUsed.2

/-- From any state a server comes to, through any further requests and outside
changes: a handle leads where it led until a successful REMOVE or RENAME of it,
a handle that leads nowhere does so until it is drawn, and the handle of `/`
stays as long as the kernel refuses to remove or rename it; and the next
request does to the database what `StableNext` says. -/
theorem handles_stable (kernel : Kernel Fs) (fs : Fs) (draws : List Fhandle)
    (events later : List (Event Fs)) (middle final : Server Fs)
    (run : runLabels (step kernel) (started fs draws) events = some middle)
    (continued : runLabels (step kernel) middle later = some final)
    (neverSeven : NeverSeven kernel (started fs draws) events)
    (neverSevenLater : NeverSeven kernel middle later) :
    (∀ handle value, getFile middle.db handle = some value →
      EveryStep (step kernel)
        (fun server event => ¬ ReleasingStep kernel handle server event)
        middle later → getFile final.db handle = some value) ∧
    (∃ used, middle.draws = used ++ final.draws ∧
      ∀ handle, getFile middle.db handle = none → handle ∉ used →
        getFile final.db handle = none) ∧
    (∀ root, getFile middle.db root = some rootPath.key →
      EveryStep (step kernel) (fun server _ => RefusesRoot kernel server.fs)
        middle later → getFile final.db root = some rootPath.key) ∧
    (∀ message leftover next,
      serve ⟨kernel, leftover⟩ message final = .ok next →
        StableNext ⟨kernel, leftover⟩ message final next) := by
  have bijective := run_bijective (started_bijective fs draws) neverSeven run
  refine ⟨?_, run_drawn bijective neverSevenLater continued, ?_, ?_⟩
  · intro handle value stored notReleased
    exact run_stable bijective neverSevenLater stored notReleased continued
  · intro root stored refuses
    exact run_root_stable bijective neverSevenLater stored refuses continued
  · intro message leftover next handled
    exact stableNext_of_serve
      (run_bijective bijective neverSevenLater continued) handled

/-- A tree has no entry that is its root. -/
theorem treeKernel_refusesRoot (files : Files) : RefusesRoot treeKernel files := by
  intro after _
  have noEntry : after.entry (pathOf rootPath) = none := rfl
  refine ⟨?_, ?_, ?_⟩
  · rw [treeKernel, filesAfter, if_neg (by decide), DirTree.rmdir,
      DirTree.removeKind, noEntry]
    rintro ⟨⟩
  · have slashed : (pathOf rootPath).slash = true := rfl
    rw [treeKernel, filesAfter, if_neg (by decide), DirTree.unlink, if_pos slashed]
    rintro ⟨⟩
  · intro newPath
    rw [treeKernel, filesAfter]
    split
    · rintro ⟨⟩
    · rw [DirTree.rename, noEntry]
      rintro ⟨⟩

/-- A mounted root survives an attempt to remove it. -/
theorem handles_stable_remove :
    ∃ final, runLabels (step treeKernel) mountedServer
        [.request removeMessage noLeftover] = some final ∧
      getFile final.db 7 = some rootPath.key := by
  have stepped : step treeKernel mountedServer
      (.request removeMessage noLeftover) = some { mountedServer with
        sent := (.error .einternal, 8) :: mountedServer.sent } := rfl
  have run : runLabels (step treeKernel) mountedServer
      [.request removeMessage noLeftover] = some { mountedServer with
        sent := (.error .einternal, 8) :: mountedServer.sent } := by
    rw [runLabels, stepped]
    rfl
  have noSeven := (neverSeven_mountMessage.2 _ step_mountMessage).head
  refine ⟨_, run, ?_⟩
  refine (handles_stable treeKernel DirTree.onlyRoot [7]
    [.request mountMessage noLeftover] [.request removeMessage noLeftover]
    mountedServer _ (by rw [runLabels, step_mountMessage]; rfl) run
    neverSeven_mountMessage ?_).2.2.1 7 rfl ?_
  · refine ⟨noSeven, ?_⟩
    intro next again
    cases stepped.symm.trans again
    exact noSeven
  · exact ⟨treeKernel_refusesRoot _, fun _ _ => trivial⟩

end ChlorosSnfs.Snfs.HandleStability
