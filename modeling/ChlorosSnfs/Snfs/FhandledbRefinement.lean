import ChlorosSnfs.Library.Runs
import ChlorosSnfs.Snfs.Fhandledb

/-!
# The handle database as a partial bijection

What the database is for: an injective partial map from names to handles.
`SpecStep` is one request on such a map, with no keys and no bytes.  As long as
no filename is seven bytes long, every run of the database is a run of
`SpecStep` with the same results.
-/

set_option autoImplicit false

namespace ChlorosSnfs.Snfs.FhandledbRefinement

open ChlorosSnfs.Library
open ChlorosSnfs.Library.Runs
open ChlorosSnfs.Snfs.Fhandledb

inductive Request where
  | nameFindOrInsert (filename : CString)
  | nameRemove (filename : CString)
  | getFile (handle : Fhandle)

/-- A request with the values drawn during it and the bytes that lie behind
the value it reads. -/
structure Call where
  request : Request
  draws : List Fhandle
  beyond : Fhandle

inductive Result where
  | handle (handle : Fhandle)
  | removal (removal : Removal)
  | file (file : Option Bytes)

/-- The database and the requests served, the last one first. -/
structure State where
  db : Db
  log : List (Request × Result)

def initial : State := ⟨emptyDb, []⟩

/-- One call; `none` when it draws no unused value. -/
def answer (db : Db) (call : Call) : Option (Result × Db) :=
  match call.request with
  | .nameFindOrInsert filename =>
      (nameFindOrInsert call.beyond db call.draws filename).map fun result =>
        (.handle result.1, result.2.1)
  | .nameRemove filename =>
      let result := nameRemove call.beyond db filename
      some (.removal result.1, result.2)
  | .getFile handle => some (.file (getFile db handle), db)

def step (state : State) (call : Call) : Option State :=
  (answer state.db call).map fun result =>
    ⟨result.2, (call.request, result.1) :: state.log⟩

/-! ## The abstract map -/

/-- One request on the map of names to handles, and what it gives. -/
inductive SpecStep : (CString ≃. Fhandle) → Request → Result →
    (CString ≃. Fhandle) → Prop
  | found {pairs filename handle} (pair : pairs filename = some handle) :
      SpecStep pairs (.nameFindOrInsert filename) (.handle handle) pairs
  | inserted {pairs filename handle} (nameFree : pairs filename = none)
      (handleFree : pairs.symm handle = none) :
      SpecStep pairs (.nameFindOrInsert filename) (.handle handle)
        (TwoWayMap.extend pairs filename handle nameFree handleFree)
  | removed {pairs filename handle} (pair : pairs filename = some handle) :
      SpecStep pairs (.nameRemove filename) (.removal (.returned true))
        (TwoWayMap.erase pairs filename)
  | absent {pairs filename} (nameFree : pairs filename = none) :
      SpecStep pairs (.nameRemove filename) (.removal (.returned false)) pairs
  | file {pairs handle} :
      SpecStep pairs (.getFile handle)
        (.file ((pairs.symm handle).map CString.key)) pairs

/-- A log of requests and results that the abstract map can give. -/
inductive SpecRun : List (Request × Result) → (CString ≃. Fhandle) → Prop
  | empty : SpecRun [] ⊥
  | step {log pairs request result next} (before : SpecRun log pairs)
      (stepped : SpecStep pairs request result next) :
      SpecRun ((request, result) :: log) next

/-! ## The refinement -/

def Request.NotSeven : Request → Prop
  | .nameFindOrInsert filename => filename.bytes.length ≠ 7
  | .nameRemove filename => filename.bytes.length ≠ 7
  | .getFile _ => True

/-- The loop of `generate_new_fhandle`, if it is entered, comes to a value
that no name has. -/
def EventuallyUnused (pairs : CString ≃. Fhandle) (call : Call) : Prop :=
  ∀ filename, call.request = .nameFindOrInsert filename →
    pairs filename = none → ∃ handle ∈ call.draws, pairs.symm handle = none

/-- The database is exactly the pairs, and no name of them is seven bytes. -/
structure Refines (db : Db) (pairs : CString ≃. Fhandle) : Prop where
  holds : HoldsPairs db pairs
  notSeven : ∀ filename handle, pairs filename = some handle →
    filename.bytes.length ≠ 7

theorem refines_empty : Refines emptyDb ⊥ :=
  ⟨holdsPairs_empty, by simp⟩

theorem Refines.db_key {db : Db} {pairs : CString ≃. Fhandle}
    (refines : Refines db pairs) {filename : CString}
    (notSeven : filename.bytes.length ≠ 7) :
    db filename.key = (pairs filename).map handleBytes :=
  refines.holds.map_nameKey_eq key_injective
    fun _ handle _ => key_ne_handleBytes notSeven handle

theorem Refines.getFile_eq {db : Db} {pairs : CString ≃. Fhandle}
    (refines : Refines db pairs) (handle : Fhandle) :
    getFile db handle = (pairs.symm handle).map CString.key := by
  apply refines.holds.map_handleKey_eq handleBytes_injective
  intro filename other pair same
  exact key_ne_handleBytes (refines.notSeven filename other pair) handle
    same.symm

theorem refines_nameFindOrInsert {db next : Db} {pairs : CString ≃. Fhandle}
    {draws rest : List Fhandle} {beyond handle : Fhandle} {filename : CString}
    (refines : Refines db pairs) (notSeven : filename.bytes.length ≠ 7)
    (called : nameFindOrInsert beyond db draws filename =
      some (handle, next, rest)) :
    ∃ morePairs, SpecStep pairs (.nameFindOrInsert filename) (.handle handle)
      morePairs ∧ Refines next morePairs := by
  rcases nameFindOrInsert_of_holds refines.holds
    (fun _ stored _ => key_ne_handleBytes notSeven stored)
    (fun draw _ => key_ne_handleBytes notSeven draw) called with
    ⟨pair, sameDb, _⟩ | ⟨nameFree, handleFree, _, _, holds⟩
  · rw [sameDb]
    exact ⟨pairs, .found pair, refines⟩
  · refine ⟨_, .inserted nameFree handleFree, holds, ?_⟩
    intro other stored pair
    rw [TwoWayMap.extend_apply] at pair
    split at pair
    · rename_i same
      rw [same]
      exact notSeven
    · exact refines.notSeven other stored pair

theorem refines_nameRemove {db : Db} {pairs : CString ≃. Fhandle}
    {filename : CString} (refines : Refines db pairs)
    (notSeven : filename.bytes.length ≠ 7) (beyond : Fhandle) :
    ∃ fewerPairs, SpecStep pairs (.nameRemove filename)
      (.removal (nameRemove beyond db filename).1) fewerPairs ∧
      Refines (nameRemove beyond db filename).2 fewerPairs := by
  cases pair : pairs filename with
  | none =>
      rw [nameRemove_of_absent refines.holds pair
        (fun _ handle _ => key_ne_handleBytes notSeven handle)]
      exact ⟨pairs, .absent pair, refines⟩
  | some handle =>
      rw [nameRemove_of_stored refines.holds pair]
      refine ⟨_, .removed pair, holdsPairs_unpaired refines.holds pair, ?_⟩
      intro other stored otherPair
      rw [TwoWayMap.erase_apply] at otherPair
      split at otherPair
      · cases otherPair
      · exact refines.notSeven other stored otherPair

theorem answer_refines {db next : Db} {pairs : CString ≃. Fhandle}
    {call : Call} {result : Result} (refines : Refines db pairs)
    (notSeven : call.request.NotSeven)
    (answered : answer db call = some (result, next)) :
    ∃ nextPairs, SpecStep pairs call.request result nextPairs ∧
      Refines next nextPairs := by
  rw [answer] at answered
  cases request : call.request with
  | nameFindOrInsert filename =>
      rw [request] at answered notSeven
      obtain ⟨⟨handle, db', rest⟩, called, same⟩ :=
        Option.map_eq_some_iff.mp answered
      cases same
      exact refines_nameFindOrInsert refines notSeven called
  | nameRemove filename =>
      rw [request] at answered notSeven
      cases answered
      exact refines_nameRemove refines notSeven call.beyond
  | getFile handle =>
      rw [request] at answered
      cases answered
      rw [refines.getFile_eq]
      exact ⟨pairs, .file, refines⟩

theorem run_refines {start final : State} {pairs : CString ≃. Fhandle}
    {calls : List Call} (before : SpecRun start.log pairs)
    (refines : Refines start.db pairs)
    (notSeven : ∀ call ∈ calls, call.request.NotSeven)
    (run : runLabels step start calls = some final) :
    ∃ finalPairs, SpecRun final.log finalPairs ∧
      Refines final.db finalPairs := by
  induction calls generalizing start pairs with
  | nil =>
      cases Option.some.inj run
      exact ⟨pairs, before, refines⟩
  | cons call rest inductionHypothesis =>
      obtain ⟨next, first, remaining⟩ :=
        (runLabels_cons_eq_some step start final call rest).mp run
      obtain ⟨⟨result, db⟩, answered, rfl⟩ := Option.map_eq_some_iff.mp first
      obtain ⟨nextPairs, stepped, nextRefines⟩ :=
        answer_refines refines (notSeven call List.mem_cons_self) answered
      exact inductionHypothesis (before.step stepped) nextRefines
        (fun other member => notSeven other (List.mem_cons_of_mem _ member))
        remaining

/-- Every call returns whose draws come to an unused value. -/
theorem answer_returns {db : Db} {pairs : CString ≃. Fhandle} {call : Call}
    (refines : Refines db pairs) (notSeven : call.request.NotSeven)
    (unused : EventuallyUnused pairs call) :
    ∃ result next, answer db call = some (result, next) := by
  rw [answer]
  cases request : call.request with
  | nameRemove filename => exact ⟨_, _, rfl⟩
  | getFile handle => exact ⟨_, _, rfl⟩
  | nameFindOrInsert filename =>
      rw [request] at notSeven
      cases pair : pairs filename with
      | some handle =>
          have known := refines.db_key notSeven
          rw [pair] at known
          simp only [nameFindOrInsert_of_known known]
          exact ⟨_, _, rfl⟩
      | none =>
          obtain ⟨handle, drawn, handleFree⟩ := unused filename request pair
          have unknown := refines.db_key notSeven
          have unread := refines.getFile_eq handle
          rw [pair] at unknown
          rw [handleFree] at unread
          obtain ⟨first, rest, generated⟩ :=
            generateNewFhandle_isSome drawn unread
          simp only [nameFindOrInsert_of_unknown unknown generated]
          exact ⟨_, _, rfl⟩

/-- What the pairs mean for the calls themselves. -/
structure HandleLaws (db : Db) : Prop where
  roundTrip : ∀ filename draws beyond handle next rest,
    filename.bytes.length ≠ 7 →
    nameFindOrInsert beyond db draws filename = some (handle, next, rest) →
      getFile next handle = some filename.key ∧
      ∀ moreDraws moreBeyond,
        nameFindOrInsert moreBeyond next moreDraws filename =
          some (handle, next, moreDraws)
  insertKeeps : ∀ filename draws beyond handle next rest,
    filename.bytes.length ≠ 7 →
    nameFindOrInsert beyond db draws filename = some (handle, next, rest) →
      ∀ other : CString, other.bytes.length ≠ 7 → other ≠ filename →
        find next other.key = find db other.key
  removeKeeps : ∀ filename beyond, filename.bytes.length ≠ 7 →
      ∀ other : CString, other.bytes.length ≠ 7 → other ≠ filename →
        find (nameRemove beyond db filename).2 other.key = find db other.key

theorem Refines.handleLaws {db : Db} {pairs : CString ≃. Fhandle}
    (refines : Refines db pairs) : HandleLaws db := by
  constructor
  · intro filename draws beyond handle next rest notSeven called
    have stored : ∃ morePairs : CString ≃. Fhandle,
        Refines next morePairs ∧ morePairs filename = some handle := by
      obtain ⟨morePairs, stepped, moreRefines⟩ :=
        refines_nameFindOrInsert refines notSeven called
      refine ⟨morePairs, moreRefines, ?_⟩
      cases stepped with
      | found pair => exact pair
      | inserted nameFree handleFree => simp [TwoWayMap.extend_apply]
    obtain ⟨morePairs, moreRefines, pair⟩ := stored
    constructor
    · rw [moreRefines.getFile_eq, morePairs.eq_some_iff.mpr pair]
      rfl
    · intro moreDraws moreBeyond
      rw [nameFindOrInsert_of_known (moreRefines.holds.map_nameKey pair),
        readHandle_handleBytes]
  · intro filename draws beyond handle next rest notSeven called other
      otherNotSeven different
    obtain ⟨morePairs, stepped, moreRefines⟩ :=
      refines_nameFindOrInsert refines notSeven called
    rw [find, find, moreRefines.db_key otherNotSeven,
      refines.db_key otherNotSeven]
    cases stepped with
    | found pair => rfl
    | inserted nameFree handleFree =>
        rw [TwoWayMap.extend_apply, if_neg different]
  · intro filename beyond notSeven other otherNotSeven different
    obtain ⟨fewerPairs, stepped, fewerRefines⟩ :=
      refines_nameRemove refines notSeven beyond
    rw [find, find, fewerRefines.db_key otherNotSeven,
      refines.db_key otherNotSeven]
    generalize (nameRemove beyond db filename).1 = removal at stepped
    cases stepped with
    | removed pair => rw [TwoWayMap.erase_apply, if_neg different]
    | absent nameFree => rfl

/-- Every run in which no filename is seven bytes long gives the results of the
abstract map and leaves exactly its pairs; the next call returns if its draws
come to an unused value. -/
theorem database_refines_bijection (calls : List Call) (final : State)
    (run : runLabels step initial calls = some final)
    (notSeven : ∀ call ∈ calls, call.request.NotSeven) :
    ∃ pairs, SpecRun final.log pairs ∧
      (∀ key value, final.db key = some value ↔ ∃ filename handle,
        pairs filename = some handle ∧
          ((key = handleBytes handle ∧ value = filename.key) ∨
            (key = filename.key ∧ value = handleBytes handle))) ∧
      (∀ call, call.request.NotSeven → EventuallyUnused pairs call →
        ∃ next, step final call = some next) ∧
      HandleLaws final.db := by
  obtain ⟨pairs, log, refines⟩ :=
    run_refines .empty refines_empty notSeven run
  refine ⟨pairs, log, refines.holds.exact, ?_, refines.handleLaws⟩
  intro call callNotSeven unused
  obtain ⟨result, next, answered⟩ := answer_returns refines callNotSeven unused
  exact ⟨⟨next, (call.request, result) :: final.log⟩, by rw [step, answered]; rfl⟩

/-- The calls of a short test: two inserts, a read, a removal, a second
removal and a second insert. -/
def shortTest : List Call :=
  [⟨.nameFindOrInsert ⟨[47], by decide⟩, [3], 0⟩,
    ⟨.nameFindOrInsert ⟨[47, 97], by decide⟩, [3, 4], 0⟩,
    ⟨.getFile 4, [], 0⟩,
    ⟨.nameRemove ⟨[47, 97], by decide⟩, [], 0⟩,
    ⟨.nameRemove ⟨[47, 97], by decide⟩, [], 0⟩,
    ⟨.nameFindOrInsert ⟨[47, 97], by decide⟩, [4], 0⟩]

theorem database_refines_bijection_shortTest :
    ∃ final pairs, runLabels step initial shortTest = some final ∧
      SpecRun final.log pairs ∧ HandleLaws final.db := by
  have returns : (runLabels step initial shortTest).isSome := by decide
  obtain ⟨final, run⟩ := Option.isSome_iff_exists.mp returns
  have notSeven : ∀ call ∈ shortTest, call.request.NotSeven := by
    intro call member
    simp only [shortTest, List.mem_cons, List.not_mem_nil, or_false] at member
    rcases member with rfl | rfl | rfl | rfl | rfl | rfl <;>
      simp [Request.NotSeven]
  obtain ⟨pairs, log, _, _, laws⟩ :=
    database_refines_bijection shortTest final run notSeven
  exact ⟨final, pairs, run, log, laws⟩

end ChlorosSnfs.Snfs.FhandledbRefinement
