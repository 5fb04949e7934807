import ChlorosSnfs.Library.LittleEndian
import ChlorosSnfs.Library.TwoWayMap
import Mathlib.Data.List.TakeWhile

/-!
# The handle database of fhandledb.c

One map holds both directions: a handle's eight bytes lead to a filename with
its NUL, and a filename with its NUL leads to the handle's eight bytes.  Calls
to Berkeley DB do not fail; reading or deleting an absent key is `DB_NOTFOUND`.
-/

set_option autoImplicit false

namespace ChlorosSnfs.Snfs.Fhandledb

open ChlorosSnfs.Library.LittleEndian
open ChlorosSnfs.Library

abbrev Bytes := List UInt8

/-- A string as its callers hold it, without the NUL that ends it. -/
structure CString where
  bytes : Bytes
  noNul : 0 ∉ bytes
  deriving DecidableEq

/-- The string that starts at some bytes; `none` when no NUL is among them. -/
def stringAt (bytes : Bytes) : Option CString :=
  if 0 ∈ bytes then
    some ⟨bytes.takeWhile (· ≠ 0), by
      intro member
      simpa using List.mem_takeWhile_imp member⟩
  else none

/-- The `strlen(filename) + 1` bytes of a filename. -/
def CString.key (filename : CString) : Bytes := filename.bytes ++ [0]

abbrev Fhandle := UInt64

/-- The `sizeof(fhandle)` bytes of a handle. -/
def handleBytes (handle : Fhandle) : Bytes := toBytes 8 handle.toNat

abbrev Db := Bytes → Option Bytes

/-- Before the first call. -/
def emptyDb : Db := fun _ => none

/-! ## The calls -/

def find (db : Db) (key : Bytes) : Option Bytes := db key

/-- `DBP->put`. -/
def insert (db : Db) (key value : Bytes) : Db :=
  Function.update db key (some value)

/-- `DBP->del`; the first component says `DB_NOTFOUND`. -/
def del (db : Db) (key : Bytes) : Bool × Db :=
  ((db key).isNone, Function.update db key none)

/-- The eight bytes at a copy `find` made.  A value shorter than that is read
together with what lies behind it on the heap. -/
def firstEight (value : Bytes) (beyond : Fhandle) : Bytes :=
  (value ++ handleBytes beyond).take 8

/-- `*(fhandle *)result`. -/
def readHandle (value : Bytes) (beyond : Fhandle) : Fhandle :=
  UInt64.ofNat (ofBytes (firstEight value beyond))

/-- How `name_remove` ends: its two results, or `err_exit`. -/
inductive Removal where
  | returned (removed : Bool)
  | errExit
  deriving DecidableEq, Repr

/-- `name_remove`. -/
def nameRemove (beyond : Fhandle) (db : Db) (filename : CString) :
    Removal × Db :=
  match find db filename.key with
  | none => (.returned false, db)
  | some handle =>
      let first := del db filename.key
      let second := del first.2 (firstEight handle beyond)
      if first.1 || second.1 then
        if !first.1 || !second.1 then (.errExit, second.2)
        else (.returned false, second.2)
      else (.returned true, second.2)

/-- `generate_new_fhandle`, over the values `get_random` will draw; `none` when
the loop has not ended by the last of them. -/
def generateNewFhandle (db : Db) : List Fhandle → Option (Fhandle × List Fhandle)
  | [] => none
  | handle :: draws =>
      match find db (handleBytes handle) with
      | none => some (handle, draws)
      | some _ => generateNewFhandle db draws

/-- `new_fhandle`. -/
def newFhandle (db : Db) (draws : List Fhandle) (filename : CString) :
    Option (Fhandle × Db × List Fhandle) :=
  match generateNewFhandle db draws with
  | none => none
  | some (handle, rest) =>
      some (handle,
        insert (insert db (handleBytes handle) filename.key) filename.key
          (handleBytes handle), rest)

/-- `name_find_or_insert`. -/
def nameFindOrInsert (beyond : Fhandle) (db : Db) (draws : List Fhandle)
    (filename : CString) : Option (Fhandle × Db × List Fhandle) :=
  match find db filename.key with
  | some result => some (readHandle result beyond, db, draws)
  | none => newFhandle db draws filename

/-- `get_file`. -/
def getFile (db : Db) (handle : Fhandle) : Option Bytes :=
  find db (handleBytes handle)

/-! ## Keys -/

@[simp]
theorem handleBytes_length (handle : Fhandle) :
    (handleBytes handle).length = 8 := toBytes_length 8 handle.toNat

@[simp]
theorem key_length (filename : CString) :
    filename.key.length = filename.bytes.length + 1 := by
  simp [CString.key]

theorem ofNat_ofBytes_handleBytes (handle : Fhandle) :
    UInt64.ofNat (ofBytes (handleBytes handle)) = handle := by
  rw [handleBytes, ofBytes_toBytes]
  apply UInt64.toNat_inj.mp
  rw [UInt64.toNat_ofNat', Nat.mod_mod_of_dvd _ (by norm_num)]
  exact Nat.mod_eq_of_lt handle.toNat_lt

theorem handleBytes_injective : Function.Injective handleBytes := by
  intro first second same
  rw [← ofNat_ofBytes_handleBytes first, same, ofNat_ofBytes_handleBytes]

theorem key_injective : Function.Injective CString.key := by
  intro first second same
  cases first
  cases second
  simpa [CString.key] using same

/-- What is stored under a name's key reads as the name. -/
@[simp]
theorem stringAt_key (filename : CString) : stringAt filename.key = some filename := by
  have untilNul : filename.key.takeWhile (· ≠ 0) = filename.bytes := by
    rw [CString.key, List.takeWhile_append_of_pos]
    · simp
    · intro byte member
      rw [decide_eq_true_eq]
      rintro rfl
      exact filename.noNul member
  have member : 0 ∈ filename.key := by simp [CString.key]
  simp only [stringAt, if_pos member, untilNul]

/-- Only a name of seven bytes has a key as long as a handle's. -/
theorem key_ne_handleBytes {filename : CString}
    (notSeven : filename.bytes.length ≠ 7) (handle : Fhandle) :
    filename.key ≠ handleBytes handle := by
  intro same
  have lengths := congrArg List.length same
  simp only [key_length, handleBytes_length] at lengths
  omega

@[simp]
theorem firstEight_handleBytes (handle beyond : Fhandle) :
    firstEight (handleBytes handle) beyond = handleBytes handle := by
  rw [firstEight, List.take_append_of_le_length (by simp)]
  exact List.take_of_length_le (by simp)

@[simp]
theorem readHandle_handleBytes (handle beyond : Fhandle) :
    readHandle (handleBytes handle) beyond = handle := by
  rw [readHandle, firstEight_handleBytes, ofNat_ofBytes_handleBytes]

/-! ## What each call can do -/

theorem generateNewFhandle_eq_some {db : Db} {draws rest : List Fhandle}
    {handle : Fhandle}
    (generated : generateNewFhandle db draws = some (handle, rest)) :
    db (handleBytes handle) = none ∧ ∃ used, draws = used ++ handle :: rest ∧
      ∀ other ∈ used, db (handleBytes other) ≠ none := by
  induction draws with
  | nil => cases generated
  | cons draw draws inductionHypothesis =>
      rw [generateNewFhandle] at generated
      cases known : find db (handleBytes draw) with
      | none =>
          rw [known] at generated
          cases generated
          exact ⟨known, [], rfl, by simp⟩
      | some value =>
          rw [known] at generated
          obtain ⟨unused, used, split, taken⟩ := inductionHypothesis generated
          refine ⟨unused, draw :: used, by rw [split]; rfl, ?_⟩
          intro other member
          rcases List.mem_cons.mp member with rfl | member
          · rw [show db (handleBytes other) = some value from known]
            exact Option.some_ne_none value
          · exact taken other member

/-- The loop ends as soon as a value it draws is unused. -/
theorem generateNewFhandle_isSome {db : Db} {draws : List Fhandle}
    {handle : Fhandle} (drawn : handle ∈ draws)
    (unused : db (handleBytes handle) = none) :
    ∃ first rest, generateNewFhandle db draws = some (first, rest) := by
  induction draws with
  | nil => cases drawn
  | cons draw draws inductionHypothesis =>
      rw [generateNewFhandle]
      cases known : find db (handleBytes draw) with
      | none => exact ⟨draw, draws, rfl⟩
      | some value =>
          rcases List.mem_cons.mp drawn with rfl | drawn
          · rw [find, unused] at known
            cases known
          · exact inductionHypothesis drawn

/-- Both directions of a new pair, as `new_fhandle` writes them. -/
def paired (db : Db) (filename : CString) (handle : Fhandle) : Db :=
  insert (insert db (handleBytes handle) filename.key) filename.key
    (handleBytes handle)

theorem paired_apply (db : Db) (filename : CString) (handle : Fhandle)
    (key : Bytes) :
    paired db filename handle key =
      if key = filename.key then some (handleBytes handle)
      else if key = handleBytes handle then some filename.key
      else db key := by
  simp only [paired, insert, Function.update_apply]

theorem nameFindOrInsert_eq_some {beyond : Fhandle} {db next : Db}
    {draws rest : List Fhandle} {filename : CString} {handle : Fhandle}
    (called : nameFindOrInsert beyond db draws filename =
      some (handle, next, rest)) :
    (∃ value, db filename.key = some value ∧ handle = readHandle value beyond ∧
      next = db ∧ rest = draws) ∨
    (db filename.key = none ∧
      generateNewFhandle db draws = some (handle, rest) ∧
      next = paired db filename handle) := by
  rw [nameFindOrInsert] at called
  cases known : find db filename.key with
  | some value =>
      rw [known] at called
      cases called
      exact Or.inl ⟨value, known, rfl, rfl, rfl⟩
  | none =>
      rw [known] at called
      simp only [newFhandle] at called
      cases generated : generateNewFhandle db draws with
      | none =>
          rw [generated] at called
          cases called
      | some result =>
          rw [generated] at called
          cases called
          exact Or.inr ⟨known, rfl, rfl⟩

theorem nameFindOrInsert_of_known {beyond : Fhandle} {db : Db}
    {draws : List Fhandle} {filename : CString} {value : Bytes}
    (known : db filename.key = some value) :
    nameFindOrInsert beyond db draws filename =
      some (readHandle value beyond, db, draws) := by
  simp only [nameFindOrInsert, find, known]

theorem nameFindOrInsert_of_unknown {beyond : Fhandle} {db : Db}
    {draws rest : List Fhandle} {filename : CString} {handle : Fhandle}
    (unknown : db filename.key = none)
    (generated : generateNewFhandle db draws = some (handle, rest)) :
    nameFindOrInsert beyond db draws filename =
      some (handle, paired db filename handle, rest) := by
  simp only [nameFindOrInsert, find, unknown, newFhandle, generated]
  rfl

theorem nameRemove_of_unknown {beyond : Fhandle} {db : Db}
    {filename : CString} (unknown : db filename.key = none) :
    nameRemove beyond db filename = (.returned false, db) := by
  simp only [nameRemove, find, unknown]

/-- The map after both deletes of `name_remove`. -/
def unpaired (db : Db) (filename : CString) (handle : Fhandle) : Db :=
  Function.update (Function.update db filename.key none) (handleBytes handle)
    none

theorem unpaired_apply (db : Db) (filename : CString) (handle : Fhandle)
    (key : Bytes) :
    unpaired db filename handle key =
      if key = handleBytes handle then none
      else if key = filename.key then none
      else db key := by
  simp only [unpaired, Function.update_apply]

/-- Where a name and its handle are both keys, both deletes succeed. -/
theorem nameRemove_of_pair {beyond : Fhandle} {db : Db} {filename : CString}
    {handle : Fhandle} {value : Bytes}
    (nameKnown : db filename.key = some (handleBytes handle))
    (handleKnown : db (handleBytes handle) = some value)
    (different : filename.key ≠ handleBytes handle) :
    nameRemove beyond db filename =
      (.returned true, unpaired db filename handle) := by
  simp [nameRemove, find, del, unpaired, nameKnown, handleKnown,
    Function.update_of_ne different.symm]

/-- However it ends, `name_remove` only takes keys away. -/
theorem nameRemove_only_deletes (beyond : Fhandle) (db : Db)
    (filename : CString) (key : Bytes) :
    (nameRemove beyond db filename).2 key = none ∨
      (nameRemove beyond db filename).2 key = db key := by
  rw [nameRemove]
  cases known : find db filename.key with
  | none => exact Or.inr rfl
  | some value =>
      simp only [del, apply_ite Prod.snd, ite_self, Function.update_apply]
      split
      · exact Or.inl rfl
      · split
        · exact Or.inl rfl
        · exact Or.inr rfl

/-! ## The map as a bijection -/

/-- The map is the two directions of the pairs and nothing else. -/
abbrev HoldsPairs (db : Db) (pairs : CString ≃. Fhandle) : Prop :=
  TwoWayMap.Holds CString.key handleBytes db pairs

theorem holdsPairs_empty : HoldsPairs emptyDb ⊥ :=
  TwoWayMap.holds_empty CString.key handleBytes

theorem holdsPairs_paired {db : Db} {pairs : CString ≃. Fhandle}
    (holds : HoldsPairs db pairs) {filename : CString} {handle : Fhandle}
    (unknown : db filename.key = none)
    (unused : db (handleBytes handle) = none)
    (different : filename.key ≠ handleBytes handle) :
    HoldsPairs (paired db filename handle)
      (TwoWayMap.extend pairs filename handle (holds.name_free unknown)
        (holds.handle_free unused)) :=
  holds.extend unknown unused different

theorem holdsPairs_unpaired {db : Db} {pairs : CString ≃. Fhandle}
    (holds : HoldsPairs db pairs) {filename : CString} {handle : Fhandle}
    (pair : pairs filename = some handle) :
    HoldsPairs (unpaired db filename handle)
      (TwoWayMap.erase pairs filename) :=
  holds.erase key_injective handleBytes_injective pair

/-- Removing a stored name: both deletes succeed and exactly its pair goes. -/
theorem nameRemove_of_stored {db : Db} {pairs : CString ≃. Fhandle}
    (holds : HoldsPairs db pairs) {filename : CString} {handle : Fhandle}
    (pair : pairs filename = some handle) (beyond : Fhandle) :
    nameRemove beyond db filename =
      (.returned true, unpaired db filename handle) :=
  nameRemove_of_pair (holds.map_nameKey pair) (holds.map_handleKey pair)
    (holds.apart filename handle filename handle pair pair)

/-- A name that is not stored is not removed. -/
theorem nameRemove_of_absent {db : Db} {pairs : CString ≃. Fhandle}
    (holds : HoldsPairs db pairs) {filename : CString}
    (absent : pairs filename = none)
    (apart : ∀ other handle, pairs other = some handle →
      filename.key ≠ handleBytes handle) (beyond : Fhandle) :
    nameRemove beyond db filename = (.returned false, db) := by
  apply nameRemove_of_unknown
  rw [holds.map_nameKey_eq key_injective apart, absent]
  rfl

/-- A name apart from the handles stored and drawn is found with its own
handle, or stored with an unused one. -/
theorem nameFindOrInsert_of_holds {beyond : Fhandle} {db next : Db}
    {draws rest : List Fhandle} {filename : CString} {handle : Fhandle}
    {pairs : CString ≃. Fhandle} (holds : HoldsPairs db pairs)
    (apart : ∀ other stored, pairs other = some stored →
      filename.key ≠ handleBytes stored)
    (apartDraws : ∀ draw ∈ draws, filename.key ≠ handleBytes draw)
    (called : nameFindOrInsert beyond db draws filename =
      some (handle, next, rest)) :
    (pairs filename = some handle ∧ next = db ∧ rest = draws) ∨
    (∃ (nameFree : pairs filename = none)
      (handleFree : pairs.symm handle = none),
      generateNewFhandle db draws = some (handle, rest) ∧
      next = paired db filename handle ∧
      HoldsPairs next
        (TwoWayMap.extend pairs filename handle nameFree handleFree)) := by
  rcases nameFindOrInsert_eq_some called with
    ⟨value, known, read, sameDb, sameDraws⟩ | ⟨unknown, generated, written⟩
  · rw [holds.map_nameKey_eq key_injective apart] at known
    obtain ⟨stored, pair, rfl⟩ := Option.map_eq_some_iff.mp known
    rw [readHandle_handleBytes] at read
    exact Or.inl ⟨by rw [pair, read], sameDb, sameDraws⟩
  · obtain ⟨unused, used, split, _⟩ := generateNewFhandle_eq_some generated
    have drawn : handle ∈ draws := by simp [split]
    refine Or.inr ⟨holds.name_free unknown, holds.handle_free unused, generated,
      written, ?_⟩
    rw [written]
    exact holdsPairs_paired holds unknown unused (apartDraws handle drawn)

end ChlorosSnfs.Snfs.Fhandledb
