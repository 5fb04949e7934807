import ChlorosSnfs.Snfs.HandlerEffects

/-!
# Handles that are drawn once and spell no name

When every value drawn is new and its eight bytes are the key of no name, the
database of every state a server comes to is a partial bijection, whatever
names are stored.  A client may still send a handle that spells a name.
-/

set_option autoImplicit false

namespace ChlorosSnfs.Snfs.FreshDraws

open ChlorosSnfs.Library
open ChlorosSnfs.Library.Runs
open ChlorosSnfs.Snfs.Fhandledb
open ChlorosSnfs.Snfs.Messages
open ChlorosSnfs.Snfs.Syscalls
open ChlorosSnfs.Snfs.Handlers
open ChlorosSnfs.Snfs.ServeLoop
open ChlorosSnfs.Snfs.HandlerEffects

variable {Fs : Type}

/-- The bytes of the handle are the key of no name. -/
def SpellsNoName (handle : Fhandle) : Prop :=
  ∀ filename, CString.key filename ≠ handleBytes handle

/-- A zero among the first seven bytes ends every name before the eighth. -/
theorem spellsNoName_of_zero {handle : Fhandle}
    (zero : 0 ∈ (handleBytes handle).take 7) : SpellsNoName handle := by
  intro filename same
  have seven : filename.bytes.length = 7 := by
    have lengths := congrArg List.length same
    simp only [key_length, handleBytes_length] at lengths
    omega
  rw [← same, CString.key, List.take_append_of_le_length (by omega),
    List.take_of_length_le (by omega)] at zero
  exact filename.noNul zero

/-- Every draw to come is new, and no handle spells a name. -/
structure Fresh (server : Server Fs) (pairs : CString ≃. Fhandle) : Prop where
  holds : HoldsPairs server.db pairs
  storedApart : ∀ filename handle, pairs filename = some handle →
    SpellsNoName handle
  drawsApart : ∀ draw ∈ server.draws, SpellsNoName draw
  nodup : server.draws.Nodup
  unused : ∀ draw ∈ server.draws, pairs.symm draw = none

theorem started_fresh (fs : Fs) {draws : List Fhandle} (nodup : draws.Nodup)
    (apart : ∀ draw ∈ draws, SpellsNoName draw) :
    Fresh (started fs draws) ⊥ :=
  ⟨holdsPairs_empty, by simp, apart, nodup, fun _ _ => rfl⟩

namespace Fresh

variable {server : Server Fs} {pairs : CString ≃. Fhandle}

/-- The database and the draws are all it speaks of. -/
theorem of_same (fresh : Fresh server pairs) {other : Server Fs}
    (db : other.db = server.db) (draws : other.draws = server.draws) :
    Fresh other pairs := by
  refine ⟨?_, fresh.storedApart, ?_, ?_, ?_⟩
  · rw [db]
    exact fresh.holds
  · rw [draws]
    exact fresh.drawsApart
  · rw [draws]
    exact fresh.nodup
  · rw [draws]
    exact fresh.unused

theorem getFile_of_pair (fresh : Fresh server pairs) {filename : CString}
    {handle : Fhandle} (pair : pairs filename = some handle) :
    getFile server.db handle = some filename.key :=
  fresh.holds.map_handleKey pair

theorem storedPath_of_pair (fresh : Fresh server pairs) {filename : CString}
    {handle : Fhandle} (pair : pairs filename = some handle) :
    storedPath server.db handle = some filename := by
  rw [storedPath, fresh.getFile_of_pair pair, Option.bind_some, stringAt_key]

/-- What a handle that spells no name leads to. -/
theorem getFile_eq (fresh : Fresh server pairs) {handle : Fhandle}
    (spellsNone : SpellsNoName handle) :
    getFile server.db handle = (pairs.symm handle).map CString.key := by
  apply fresh.holds.map_handleKey_eq handleBytes_injective
  intro filename other _
  exact (spellsNone filename).symm

/-- The next draw is taken. -/
theorem generateNewFhandle_eq (fresh : Fresh server pairs) {draw : Fhandle}
    {rest : List Fhandle} (draws : server.draws = draw :: rest) :
    generateNewFhandle server.db server.draws = some (draw, rest) := by
  have drawn : draw ∈ server.draws := by simp [draws]
  have unused : getFile server.db draw = none := by
    rw [fresh.getFile_eq (fresh.drawsApart draw drawn), fresh.unused draw drawn]
    rfl
  rw [getFile] at unused
  rw [draws, generateNewFhandle, unused]

theorem db_key (fresh : Fresh server pairs) (filename : CString) :
    server.db filename.key = (pairs filename).map handleBytes :=
  fresh.holds.map_nameKey_eq key_injective fun other stored pair =>
    fresh.storedApart other stored pair filename

/-- A name is found, or there is a draw for it. -/
theorem findOrInsert_ok (fresh : Fresh server pairs) (env : Env Fs)
    (filename : CString) (supply : pairs filename = none → server.draws ≠ []) :
    ∃ handle after, findOrInsert env filename server = .ok (handle, after) := by
  have key := fresh.db_key filename
  rw [findOrInsert]
  cases pair : pairs filename with
  | some handle =>
      rw [pair] at key
      rw [nameFindOrInsert_of_known key]
      exact ⟨_, _, rfl⟩
  | none =>
      obtain ⟨draw, rest, draws⟩ := List.exists_cons_of_ne_nil (supply pair)
      rw [pair] at key
      rw [nameFindOrInsert_of_unknown key (fresh.generateNewFhandle_eq draws)]
      exact ⟨_, _, rfl⟩

end Fresh

/-! ## The two calls -/

/-- A name has its handle, and every other name has the one it had. -/
structure Gains (pairs more : CString ≃. Fhandle) (filename : CString)
    (handle : Fhandle) : Prop where
  pair : more filename = some handle
  kept : ∀ other stored, pairs other = some stored → more other = some stored
  other : ∀ other, other ≠ filename → more other = pairs other

theorem Fresh.called {server : Server Fs} {pairs : CString ≃. Fhandle}
    (fresh : Fresh server pairs) (after : Server Fs) {beyond : Fhandle}
    {filename : CString} {handle : Fhandle}
    (called : nameFindOrInsert beyond server.db server.draws filename =
      some (handle, after.db, after.draws)) :
    ∃ more, Fresh after more ∧ Gains pairs more filename handle ∧
      (pairs filename = some handle ∧ after.draws = server.draws ∨
        pairs filename = none ∧ server.draws = handle :: after.draws) := by
  have apart : ∀ other stored, pairs other = some stored →
      filename.key ≠ handleBytes stored := by
    intro other stored pair
    exact fresh.storedApart other stored pair filename
  have apartDraws : ∀ draw ∈ server.draws, filename.key ≠ handleBytes draw := by
    intro draw drawn
    exact fresh.drawsApart draw drawn filename
  rcases nameFindOrInsert_of_holds fresh.holds apart apartDraws called with
    ⟨pair, sameDb, sameDraws⟩ | ⟨nameFree, handleFree, generated, _, holds⟩
  · exact ⟨pairs, fresh.of_same sameDb sameDraws,
      ⟨pair, fun _ _ stored => stored, fun _ _ => rfl⟩,
      Or.inl ⟨pair, sameDraws⟩⟩
  · obtain ⟨draw, rest, draws⟩ : ∃ draw rest, server.draws = draw :: rest := by
      cases draws : server.draws with
      | nil =>
          rw [draws] at generated
          cases generated
      | cons draw rest => exact ⟨draw, rest, rfl⟩
    rw [fresh.generateNewFhandle_eq draws] at generated
    obtain ⟨sameHandle, sameRest⟩ := Prod.mk.inj (Option.some.inj generated)
    subst sameHandle
    rw [sameRest] at draws
    have nodup := fresh.nodup
    rw [draws, List.nodup_cons] at nodup
    have drawn : ∀ other ∈ after.draws, other ∈ server.draws := by
      intro other member
      rw [draws]
      exact List.mem_cons_of_mem _ member
    refine ⟨_, ⟨holds, ?_, ?_, nodup.2, ?_⟩, ⟨?_, ?_, ?_⟩,
      Or.inr ⟨nameFree, draws⟩⟩
    · intro other stored pair
      rw [TwoWayMap.extend_apply] at pair
      split at pair
      · cases pair
        exact fresh.drawsApart draw (by simp [draws])
      · exact fresh.storedApart other stored pair
    · intro other member
      exact fresh.drawsApart other (drawn other member)
    · intro other member
      rw [TwoWayMap.extend_symm_apply, if_neg]
      · exact fresh.unused other (drawn other member)
      · rintro rfl
        exact nodup.1 member
    · rw [TwoWayMap.extend_apply, if_pos rfl]
    · intro other stored pair
      rw [TwoWayMap.extend_apply, if_neg]
      · exact pair
      · rintro rfl
        rw [nameFree] at pair
        cases pair
    · intro other different
      rw [TwoWayMap.extend_apply, if_neg different]

/-- A name goes, if it is there. -/
theorem Fresh.removed {server after : Server Fs} {pairs : CString ≃. Fhandle}
    (fresh : Fresh server pairs) {beyond : Fhandle} {filename : CString}
    {result : Bool}
    (called : nameRemove beyond server.db filename =
      (.returned result, after.db)) (draws : after.draws = server.draws) :
    Fresh after (TwoWayMap.erase pairs filename) ∧
      result = (pairs filename).isSome := by
  have erased : HoldsPairs after.db (TwoWayMap.erase pairs filename) ∧
      result = (pairs filename).isSome := by
    cases pair : pairs filename with
    | some handle =>
        rw [nameRemove_of_stored fresh.holds pair] at called
        obtain ⟨same, written⟩ := Prod.mk.inj called
        rw [← written]
        exact ⟨holdsPairs_unpaired fresh.holds pair,
          (Removal.returned.inj same).symm⟩
    | none =>
        rw [nameRemove_of_absent fresh.holds pair
          fun other stored otherPair =>
            fresh.storedApart other stored otherPair filename] at called
        obtain ⟨same, written⟩ := Prod.mk.inj called
        have unchanged : TwoWayMap.erase pairs filename = pairs := by
          apply PEquiv.ext
          intro other
          rw [TwoWayMap.erase_apply]
          split
          · rename_i isName
            rw [isName, pair]
          · rfl
        rw [← written, unchanged]
        exact ⟨fresh.holds, (Removal.returned.inj same).symm⟩
  refine ⟨⟨erased.1, ?_, ?_, ?_, ?_⟩, erased.2⟩
  · intro other stored pair
    rw [TwoWayMap.erase_apply] at pair
    split at pair
    · cases pair
    · exact fresh.storedApart other stored pair
  · rw [draws]
    exact fresh.drawsApart
  · rw [draws]
    exact fresh.nodup
  · intro draw drawn
    rw [draws] at drawn
    rw [TwoWayMap.erase_symm_apply, fresh.unused draw drawn]
    rfl

/-! ## Whole runs -/

theorem ending_fresh {env : Env Fs} {message : Bytes}
    {before after : Server Fs} {type : MsgType} {pairs : CString ≃. Fhandle}
    (fresh : Fresh before pairs)
    (ending : Ending env message before after type) :
    ∃ more, Fresh after more := by
  cases ending with
  | refused refused => exact ⟨pairs, fresh.of_same refused.db refused.draws⟩
  | answered leaves answered =>
      exact ⟨pairs, fresh.of_same answered.db answered.draws⟩
  | mounted root named fs sent =>
      obtain ⟨more, freshAfter, _⟩ := fresh.called after named.inserted
      exact ⟨more, freshAfter⟩
  | lookedUp dirPath filename handle found =>
      obtain ⟨more, freshAfter, _⟩ := fresh.called after found.named.inserted
      exact ⟨more, freshAfter⟩
  | created path handle made sent =>
      obtain ⟨more, freshAfter, _⟩ := fresh.called after made.named.inserted
      exact ⟨more, freshAfter⟩
  | madeDirectory path handle made sent =>
      obtain ⟨more, freshAfter, _⟩ := fresh.called after made.named.inserted
      exact ⟨more, freshAfter⟩
  | unlinked handle path removed gone =>
      exact ⟨_, (fresh.removed gone.db gone.draws).1⟩
  | moved handle oldPath newPath newHandle removed moved =>
      obtain ⟨middle, inserted, result⟩ := moved.db
      obtain ⟨more, freshMiddle, _⟩ :=
        fresh.called { after with db := middle } inserted
      exact ⟨_, (freshMiddle.removed result rfl).1⟩

theorem step_fresh {kernel : Kernel Fs} {server next : Server Fs}
    {event : Event Fs} (fresh : ∃ pairs, Fresh server pairs)
    (stepped : step kernel server event = some next) :
    ∃ more, Fresh next more := by
  obtain ⟨pairs, fresh⟩ := fresh
  cases event with
  | external fs =>
      cases stepped
      exact ⟨pairs, fresh.of_same rfl rfl⟩
  | request message leftover =>
      rw [step] at stepped
      split at stepped
      · rename_i handled
        cases stepped
        obtain ⟨_, _, ending⟩ := serve_ending handled
        exact ending_fresh fresh ending
      · cases stepped

theorem run_fresh {kernel : Kernel Fs} {fs : Fs} {draws : List Fhandle}
    {events : List (Event Fs)} {server : Server Fs} (nodup : draws.Nodup)
    (apart : ∀ draw ∈ draws, SpellsNoName draw)
    (run : runLabels (step kernel) (started fs draws) events = some server) :
    ∃ pairs, Fresh server pairs :=
  invariant_of_run (fun _ _ _ before stepped => step_fresh before stepped)
    ⟨⊥, started_fresh fs nodup apart⟩ run

end ChlorosSnfs.Snfs.FreshDraws
