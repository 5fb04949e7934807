import ChlorosSnfs.Library.CutOff
import ChlorosSnfs.Snfs.Fhandledb

/-!
# The order of puts and deletes

The server may die between any two operations on the database and is restarted
on the file as it is.  `new_fhandle` puts the handle before the filename and
`name_remove` deletes the filename before the handle, so what is cut off leaves
at most a handle that no filename leads to.
-/

set_option autoImplicit false

namespace ChlorosSnfs.Snfs.CrashOrdering

open ChlorosSnfs.Library.CutOff
open ChlorosSnfs.Library.Runs
open ChlorosSnfs.Snfs.Fhandledb

/-! ## The calls, one operation at a time -/

/-- What a call ends with; `drawing` has not found an unused handle among the
values drawn. -/
inductive Ending where
  | handle (handle : Fhandle)
  | removal (removal : Removal)
  | drawing
  deriving DecidableEq, Repr

abbrev Code : Type := Program Bytes Bytes Ending

/-- `generate_new_fhandle`, and what is done with the handle. -/
def generateNewFhandleCode (use : Fhandle → Code) : List Fhandle → Code
  | [] => .done .drawing
  | handle :: draws =>
      .find (handleBytes handle) fun
        | none => use handle
        | some _ => generateNewFhandleCode use draws

/-- `new_fhandle`. -/
def newFhandleCode (draws : List Fhandle) (filename : CString) : Code :=
  generateNewFhandleCode (fun handle =>
    .put (handleBytes handle) filename.key
      (.put filename.key (handleBytes handle) (.done (.handle handle)))) draws

/-- `name_find_or_insert`. -/
def nameFindOrInsertCode (filename : CString) (draws : List Fhandle)
    (beyond : Fhandle) : Code :=
  .find filename.key fun
    | some result => .done (.handle (readHandle result beyond))
    | none => newFhandleCode draws filename

/-- How `name_remove` ends, by which of its deletes find no key. -/
def removalOf (first second : Bool) : Removal :=
  if first || second then
    if !first || !second then .errExit else .returned false
  else .returned true

/-- `name_remove`. -/
def nameRemoveCode (filename : CString) (beyond : Fhandle) : Code :=
  .find filename.key fun
    | none => .done (.removal (.returned false))
    | some handle =>
        .del filename.key fun first =>
          .del (firstEight handle beyond) fun second =>
            .done (.removal (removalOf first second))

inductive Call where
  | nameFindOrInsert (filename : CString) (draws : List Fhandle)
      (beyond : Fhandle)
  | nameRemove (filename : CString) (beyond : Fhandle)

def Call.filename : Call → CString
  | .nameFindOrInsert filename _ _ => filename
  | .nameRemove filename _ => filename

def Call.code : Call → Code
  | .nameFindOrInsert filename draws beyond =>
      nameFindOrInsertCode filename draws beyond
  | .nameRemove filename beyond => nameRemoveCode filename beyond

/-! ## Calls that are not cut off -/

theorem run_generateNewFhandleCode (use : Fhandle → Code) (db : Db)
    (draws : List Fhandle) :
    (generateNewFhandleCode use draws).run db =
      match generateNewFhandle db draws with
      | none => (.drawing, db)
      | some (handle, _) => (use handle).run db := by
  induction draws with
  | nil => rfl
  | cons handle draws inductionHypothesis =>
      rw [generateNewFhandleCode, Program.run, generateNewFhandle, find]
      cases db (handleBytes handle) with
      | none => rfl
      | some value => exact inductionHypothesis

theorem run_nameFindOrInsertCode (filename : CString) (draws : List Fhandle)
    (beyond : Fhandle) (db : Db) :
    (nameFindOrInsertCode filename draws beyond).run db =
      match nameFindOrInsert beyond db draws filename with
      | none => (.drawing, db)
      | some (handle, next, _) => (.handle handle, next) := by
  rw [nameFindOrInsertCode, Program.run, nameFindOrInsert, find]
  cases db filename.key with
  | some value => rfl
  | none =>
      dsimp only
      rw [newFhandleCode, run_generateNewFhandleCode, newFhandle]
      cases generateNewFhandle db draws with
      | none => rfl
      | some generated => rfl

theorem nameRemove_of_known {filename : CString} {db : Db} {handle : Bytes}
    (known : db filename.key = some handle) (beyond : Fhandle) :
    let first := del db filename.key
    let second := del first.2 (firstEight handle beyond)
    nameRemove beyond db filename = (removalOf first.1 second.1, second.2) := by
  simp only [nameRemove, find, known, removalOf]
  cases (del db filename.key).1 <;>
    cases (del (del db filename.key).2 (firstEight handle beyond)).1 <;> rfl

theorem run_nameRemoveCode (filename : CString) (beyond : Fhandle) (db : Db) :
    (nameRemoveCode filename beyond).run db =
      (.removal (nameRemove beyond db filename).1,
        (nameRemove beyond db filename).2) := by
  rw [nameRemoveCode, Program.run]
  cases known : db filename.key with
  | none => rw [nameRemove_of_unknown known, Program.run]
  | some handle =>
      rw [nameRemove_of_known known]
      simp only [Program.run, del, known]

/-- What the whole call makes of the database. -/
def wholeCall (db : Db) : Call → Db
  | .nameFindOrInsert filename draws beyond =>
      match nameFindOrInsert beyond db draws filename with
      | none => db
      | some (_, next, _) => next
  | .nameRemove filename beyond => (nameRemove beyond db filename).2

theorem run_code (call : Call) (db : Db) : (call.code.run db).2 = wholeCall db call := by
  cases call with
  | nameFindOrInsert filename draws beyond =>
      rw [Call.code, run_nameFindOrInsertCode, wholeCall]
      cases nameFindOrInsert beyond db draws filename <;> rfl
  | nameRemove filename beyond => rw [Call.code, run_nameRemoveCode, wholeCall]

/-- A call that is not cut off makes of the database what it should. -/
theorem uncut_call (call : Call) (db : Db) :
    ∃ count, runLabels (step Call.code) ⟨db, none⟩
      (.call call :: List.replicate count .operate) =
        some ⟨wholeCall db call, none⟩ := by
  rw [← run_code]
  exact operations_run Call.code call.code db

/-! ## Filenames and their handles -/

/-- Every filename leads to a handle that leads back to it. -/
def Matched (db : Db) : Prop :=
  ∀ (filename : CString) value, filename.bytes.length ≠ 7 → db filename.key = some value →
    ∃ handle, value = handleBytes handle ∧
      db (handleBytes handle) = some filename.key

theorem matched_empty : Matched emptyDb := by
  rintro filename value - ⟨⟩

section Matched

variable {db : Db} {filename : CString} {handle : Fhandle}

/-- The first put of `new_fhandle`. -/
theorem Matched.insert_handle (matched : Matched db)
    (unused : db (handleBytes handle) = none) (value : Bytes) :
    Matched (insert db (handleBytes handle) value) := by
  intro other value notSeven known
  rw [Fhandledb.insert, Function.update_of_ne (key_ne_handleBytes notSeven handle)] at known
  obtain ⟨its, rfl, back⟩ := matched other value notSeven known
  have different : handleBytes its ≠ handleBytes handle := by
    intro same
    rw [same, unused] at back
    cases back
  refine ⟨its, rfl, ?_⟩
  rw [Fhandledb.insert, Function.update_of_ne different]
  exact back

/-- The second. -/
theorem Matched.insert_filename (matched : Matched db)
    (notSeven : filename.bytes.length ≠ 7)
    (back : db (handleBytes handle) = some filename.key) :
    Matched (insert db filename.key (handleBytes handle)) := by
  have kept (its : Fhandle) : Fhandledb.insert db filename.key (handleBytes handle)
      (handleBytes its) = db (handleBytes its) :=
    Function.update_of_ne (key_ne_handleBytes notSeven its).symm _ _
  intro other value otherNotSeven known
  by_cases same : other.key = filename.key
  · rw [Fhandledb.insert, same, Function.update_self] at known
    cases known
    exact ⟨handle, rfl, by rw [kept, back, same]⟩
  · rw [Fhandledb.insert, Function.update_of_ne same] at known
    obtain ⟨its, rfl, itsBack⟩ := matched other value otherNotSeven known
    exact ⟨its, rfl, (kept its).trans itsBack⟩

/-- The first delete of `name_remove`. -/
theorem Matched.del_filename (matched : Matched db)
    (notSeven : filename.bytes.length ≠ 7) :
    Matched (Function.update db filename.key none) := by
  intro other value otherNotSeven known
  rw [Function.update_apply] at known
  split at known
  · cases known
  · obtain ⟨its, rfl, back⟩ := matched other value otherNotSeven known
    refine ⟨its, rfl, ?_⟩
    rw [Function.update_of_ne (key_ne_handleBytes notSeven its).symm]
    exact back

/-- The second: the handle led to a filename that is gone. -/
theorem Matched.del_handle (matched : Matched db)
    (back : db (handleBytes handle) = some filename.key)
    (gone : db filename.key = none) :
    Matched (Function.update db (handleBytes handle) none) := by
  intro other value notSeven known
  rw [Function.update_of_ne (key_ne_handleBytes notSeven handle)] at known
  obtain ⟨its, rfl, itsBack⟩ := matched other value notSeven known
  have different : handleBytes its ≠ handleBytes handle := by
    intro same
    rw [same, back, Option.some.injEq] at itsBack
    rw [← itsBack, gone] at known
    cases known
  refine ⟨its, rfl, ?_⟩
  rw [Function.update_of_ne different]
  exact itsBack

/-! ## Every point of every call -/

theorem Matched.safe_newFhandleCode (matched : Matched db)
    (notSeven : filename.bytes.length ≠ 7) (draws : List Fhandle) :
    (newFhandleCode draws filename).Safe Matched db := by
  rw [newFhandleCode]
  induction draws with
  | nil => exact matched
  | cons handle draws inductionHypothesis =>
      rw [generateNewFhandleCode, Program.Safe]
      refine ⟨matched, ?_⟩
      cases unused : db (handleBytes handle) with
      | some value => exact inductionHypothesis
      | none =>
          have put := matched.insert_handle unused filename.key
          have back : Fhandledb.insert db (handleBytes handle) filename.key
              (handleBytes handle) = some filename.key :=
            Function.update_self _ _ _
          exact ⟨matched, put, put.insert_filename notSeven back⟩

theorem Matched.safe_nameFindOrInsertCode (matched : Matched db)
    (notSeven : filename.bytes.length ≠ 7) (draws : List Fhandle) (beyond : Fhandle) :
    (nameFindOrInsertCode filename draws beyond).Safe Matched db := by
  rw [nameFindOrInsertCode, Program.Safe]
  refine ⟨matched, ?_⟩
  cases db filename.key with
  | some value => exact matched
  | none => exact matched.safe_newFhandleCode notSeven draws

theorem Matched.safe_nameRemoveCode (matched : Matched db)
    (notSeven : filename.bytes.length ≠ 7) (beyond : Fhandle) :
    (nameRemoveCode filename beyond).Safe Matched db := by
  rw [nameRemoveCode, Program.Safe]
  refine ⟨matched, ?_⟩
  cases known : db filename.key with
  | none => exact matched
  | some value =>
      obtain ⟨handle, rfl, back⟩ := matched filename value notSeven known
      have first := matched.del_filename notSeven
      have stillBack : Function.update db filename.key none (handleBytes handle) =
          some filename.key := by
        rw [Function.update_of_ne (key_ne_handleBytes notSeven handle).symm]
        exact back
      simp only [firstEight_handleBytes, Program.Safe]
      exact ⟨matched, first, first.del_handle stillBack (Function.update_self _ _ _)⟩

/-! ## After a crash -/

/-- What the calls for a filename do with a database, whatever has happened to
it. -/
structure Recovers (db : Db) (filename : CString) : Prop where
  found : ∀ beyond draws,
    (db filename.key = none → ∃ handle ∈ draws, db (handleBytes handle) = none) →
    ∃ handle next rest,
      nameFindOrInsert beyond db draws filename = some (handle, next, rest) ∧
        getFile next handle = some filename.key
  removed : ∀ beyond, ∃ next,
    nameRemove beyond db filename =
      (.returned (db filename.key).isSome, next) ∧ next filename.key = none

theorem Matched.found (matched : Matched db) (notSeven : filename.bytes.length ≠ 7)
    {draws : List Fhandle}
    (fresh : db filename.key = none → ∃ handle ∈ draws, db (handleBytes handle) = none)
    (beyond : Fhandle) :
    ∃ handle next rest,
      nameFindOrInsert beyond db draws filename = some (handle, next, rest) ∧
        getFile next handle = some filename.key := by
  cases known : db filename.key with
  | some value =>
      obtain ⟨handle, rfl, back⟩ := matched filename value notSeven known
      refine ⟨handle, db, draws, ?_, back⟩
      rw [nameFindOrInsert_of_known known, readHandle_handleBytes]
  | none =>
      obtain ⟨drawn, member, unused⟩ := fresh known
      obtain ⟨handle, rest, generated⟩ := generateNewFhandle_isSome member unused
      refine ⟨handle, _, rest, nameFindOrInsert_of_unknown known generated, ?_⟩
      rw [getFile, find, paired_apply, if_neg (key_ne_handleBytes notSeven handle).symm,
        if_pos rfl]

theorem Matched.removed (matched : Matched db) (notSeven : filename.bytes.length ≠ 7)
    (beyond : Fhandle) :
    ∃ next, nameRemove beyond db filename =
      (.returned (db filename.key).isSome, next) ∧ next filename.key = none := by
  cases known : db filename.key with
  | none => exact ⟨db, nameRemove_of_unknown known, known⟩
  | some value =>
      obtain ⟨handle, rfl, back⟩ := matched filename value notSeven known
      refine ⟨_, nameRemove_of_pair known back (key_ne_handleBytes notSeven handle), ?_⟩
      rw [unpaired_apply, if_neg (key_ne_handleBytes notSeven handle), if_pos rfl]

theorem Matched.recovers (matched : Matched db) (notSeven : filename.bytes.length ≠ 7) :
    Recovers db filename :=
  ⟨fun beyond _ fresh => matched.found notSeven fresh beyond,
    fun beyond => matched.removed notSeven beyond⟩

end Matched

/-- Wherever the server dies, and however often: at every point every filename has
its handle, and the calls that come next do what they should. -/
theorem crashes_keep_matched {events : List (Event Call)}
    (notSeven : ∀ call, .call call ∈ events → call.filename.bytes.length ≠ 7) :
    Everywhere (step Call.code) (fun machine => Matched machine.store ∧
      ∀ filename : CString, filename.bytes.length ≠ 7 →
        Recovers machine.store filename) ⟨emptyDb, none⟩ events := by
  have safe (call : Call) (member : .call call ∈ events) (db : Db)
      (matched : Matched db) : call.code.Safe Matched db := by
    have short := notSeven call member
    cases call with
    | nameFindOrInsert filename draws beyond =>
        exact matched.safe_nameFindOrInsertCode short draws beyond
    | nameRemove filename beyond => exact matched.safe_nameRemoveCode short beyond
  exact (everywhere_of_safe safe matched_empty).mono
    fun machine matched => ⟨matched, fun _ notSeven => matched.recovers notSeven⟩

theorem shortName_noNul : (0 : UInt8) ∉ ([47, 120] : Bytes) := by decide

/-- `/x`. -/
def shortName : CString := ⟨[47, 120], shortName_noNul⟩

/-- The server dies between the two puts of `new_fhandle`. -/
def cutInsertion : List (Event Call) :=
  [.call (.nameFindOrInsert shortName [5] 0), .operate, .operate, .operate, .crash]

/-- The handle is left without a filename that leads to it. -/
theorem crashes_keep_matched_cutInsertion :
    ∃ machine, runLabels (step Call.code) ⟨emptyDb, none⟩ cutInsertion = some machine ∧
      machine.store (handleBytes 5) = some shortName.key ∧
      machine.store shortName.key = none ∧
      Everywhere (step Call.code) (fun machine => Matched machine.store ∧
        ∀ filename : CString, filename.bytes.length ≠ 7 →
          Recovers machine.store filename) ⟨emptyDb, none⟩ cutInsertion := by
  refine ⟨_, rfl, by decide, by decide, crashes_keep_matched ?_⟩
  intro call member
  simp only [cutInsertion, List.mem_cons, Event.call.injEq, reduceCtorEq,
    List.not_mem_nil, or_false] at member
  rw [member]
  decide

end ChlorosSnfs.Snfs.CrashOrdering
