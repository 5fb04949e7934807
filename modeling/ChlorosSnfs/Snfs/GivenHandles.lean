import ChlorosSnfs.Snfs.HandleIdentity

/-!
# What becomes of a handle that has been given out

A client keeps a handle over the requests of others.  Whatever they are, the handle
leads to the path it was given for or, once the name has been removed or renamed,
nowhere: its value is never drawn again.
-/

set_option autoImplicit false

namespace ChlorosSnfs.Snfs.GivenHandles

open ChlorosSnfs.Library
open ChlorosSnfs.Snfs.Fhandledb
open ChlorosSnfs.Snfs.Messages
open ChlorosSnfs.Snfs.Syscalls
open ChlorosSnfs.Snfs.ServeLoop
open ChlorosSnfs.Snfs.HandlerEffects
open ChlorosSnfs.Snfs.FreshDraws
open ChlorosSnfs.Snfs.HandleIdentity

variable {Fs : Type} {before after : Server Fs}

/-- The handle leads to this path or nowhere, for good. -/
structure StandsFor (server : Server Fs) (handle : Fhandle) (path : CString) :
    Prop where
  spellsNone : SpellsNoName handle
  drawn : handle ∉ server.draws
  stored : ∀ name, storedPath server.db handle = some name → name = path

theorem standsFor_of_pair {server : Server Fs} {pairs : CString ≃. Fhandle}
    (fresh : Fresh server pairs) {path : CString} {handle : Fhandle}
    (pair : pairs path = some handle) : StandsFor server handle path := by
  refine ⟨fresh.storedApart path handle pair, ?_, ?_⟩
  · intro drawn
    have unused := fresh.unused handle drawn
    rw [pairs.eq_some_iff.mpr pair] at unused
    cases unused
  · intro name stored
    rw [fresh.storedPath_of_pair pair] at stored
    exact (Option.some.inj stored).symm

/-- A handle that is known stands for the name it is paired with. -/
theorem StandsFor.pair {server : Server Fs} {pairs : CString ≃. Fhandle}
    (fresh : Fresh server pairs) {handle : Fhandle} {path name : CString}
    (stands : StandsFor server handle path)
    (stored : storedPath server.db handle = some name) :
    name = path ∧ pairs path = some handle := by
  have same := stands.stored name stored
  subst same
  exact ⟨rfl, pair_of_storedPath fresh stands.spellsNone stored⟩

/-- Every pair of a later database is old or has a handle drawn since. -/
structure Succeeds (before after : Server Fs) (pairs more : CString ≃. Fhandle) :
    Prop where
  fresh : Fresh after more
  drawsLeft : ∀ draw ∈ after.draws, draw ∈ before.draws
  wasPair : ∀ name handle, more name = some handle →
    pairs name = some handle ∨ handle ∈ before.draws

theorem Succeeds.standsFor {pairs more : CString ≃. Fhandle}
    (freshBefore : Fresh before pairs) (succeeds : Succeeds before after pairs more)
    {handle : Fhandle} {path : CString} (stands : StandsFor before handle path) :
    StandsFor after handle path := by
  refine ⟨stands.spellsNone, ?_, ?_⟩
  · intro left
    exact stands.drawn (succeeds.drawsLeft handle left)
  · intro name stored
    have pair := pair_of_storedPath succeeds.fresh stands.spellsNone stored
    rcases succeeds.wasPair name handle pair with old | drawn
    · exact stands.stored name (freshBefore.storedPath_of_pair old)
    · exact absurd drawn stands.drawn

theorem succeeds_of_same {pairs : CString ≃. Fhandle} (fresh : Fresh before pairs)
    (db : after.db = before.db) (draws : after.draws = before.draws) :
    Succeeds before after pairs pairs := by
  refine ⟨fresh.of_same db draws, ?_, fun _ _ pair => Or.inl pair⟩
  rw [draws]
  exact fun _ left => left

theorem succeeds_of_called {pairs : CString ≃. Fhandle} (fresh : Fresh before pairs)
    (after : Server Fs) {beyond : Fhandle} {filename : CString} {handle : Fhandle}
    (called : nameFindOrInsert beyond before.db before.draws filename =
      some (handle, after.db, after.draws)) :
    ∃ more, Succeeds before after pairs more ∧ Gains pairs more filename handle := by
  obtain ⟨more, freshAfter, gains, supply⟩ := fresh.called after called
  refine ⟨more, ⟨freshAfter, ?_, ?_⟩, gains⟩
  · intro draw left
    rcases supply with ⟨_, same⟩ | ⟨_, drawn⟩
    · rw [same] at left
      exact left
    · rw [drawn]
      exact List.mem_cons_of_mem _ left
  · intro name other pair
    by_cases isNew : name = filename
    · subst isNew
      rw [gains.pair] at pair
      cases pair
      rcases supply with ⟨known, _⟩ | ⟨_, drawn⟩
      · exact Or.inl known
      · rw [drawn]
        exact Or.inr List.mem_cons_self
    · rw [gains.other name isNew] at pair
      exact Or.inl pair

/-- A name that goes leaves no pair that was not there. -/
theorem Succeeds.erased {middle : Server Fs} {pairs more : CString ≃. Fhandle}
    (succeeds : Succeeds before middle pairs more) {beyond : Fhandle}
    {filename : CString} {result : Bool}
    (removed : nameRemove beyond middle.db filename = (.returned result, after.db))
    (draws : after.draws = middle.draws) :
    Succeeds before after pairs (TwoWayMap.erase more filename) := by
  refine ⟨(succeeds.fresh.removed removed draws).1, ?_, ?_⟩
  · rw [draws]
    exact succeeds.drawsLeft
  · intro name handle pair
    exact succeeds.wasPair name handle (pair_of_erase pair)

theorem succeeds_of_ending {env : Env Fs} {message : Bytes} {type : MsgType}
    {pairs : CString ≃. Fhandle} (fresh : Fresh before pairs)
    (ending : Ending env message before after type) :
    ∃ more, Succeeds before after pairs more := by
  cases ending with
  | refused refused => exact ⟨pairs, succeeds_of_same fresh refused.db refused.draws⟩
  | answered leaves answered =>
      exact ⟨pairs, succeeds_of_same fresh answered.db answered.draws⟩
  | mounted root named fs sent =>
      obtain ⟨more, succeeds, _⟩ := succeeds_of_called fresh after named.inserted
      exact ⟨more, succeeds⟩
  | lookedUp dirPath filename handle found =>
      obtain ⟨more, succeeds, _⟩ :=
        succeeds_of_called fresh after found.named.inserted
      exact ⟨more, succeeds⟩
  | created path handle made sent =>
      obtain ⟨more, succeeds, _⟩ := succeeds_of_called fresh after made.named.inserted
      exact ⟨more, succeeds⟩
  | madeDirectory path handle made sent =>
      obtain ⟨more, succeeds, _⟩ := succeeds_of_called fresh after made.named.inserted
      exact ⟨more, succeeds⟩
  | unlinked handle path removed gone =>
      have unmoved : Succeeds before before pairs pairs :=
        succeeds_of_same fresh rfl rfl
      exact ⟨_, unmoved.erased gone.db gone.draws⟩
  | moved handle oldPath newPath newHandle removed moved =>
      obtain ⟨middle, inserted, result⟩ := moved.db
      obtain ⟨more, succeeds, _⟩ :=
        succeeds_of_called fresh { after with db := middle } inserted
      exact ⟨_, succeeds.erased result rfl⟩

/-- One request of anybody's, whatever its bytes. -/
theorem standsFor_of_serve {env : Env Fs} {message : Bytes}
    (fresh : ∃ pairs, Fresh before pairs)
    (handled : serve env message before = .ok after) :
    (∃ more, Fresh after more) ∧
      ∀ handle path, StandsFor before handle path → StandsFor after handle path := by
  obtain ⟨pairs, fresh⟩ := fresh
  obtain ⟨_, _, ending⟩ := serve_ending handled
  obtain ⟨more, succeeds⟩ := succeeds_of_ending fresh ending
  exact ⟨⟨more, succeeds.fresh⟩, fun _ _ stands => succeeds.standsFor fresh stands⟩

end ChlorosSnfs.Snfs.GivenHandles
