import ChlorosSnfs.Library.Runs
import ChlorosSnfs.Snfs.Fhandledb

/-!
# Handle keys and filename keys

A handle is eight bytes and a filename of seven bytes has a key of eight.  As
long as no such filename is given to `name_find_or_insert`, every key of eight
bytes leads to a filename that was inserted and every other key to a handle
that was generated, whatever is removed in between.
-/

set_option autoImplicit false

namespace ChlorosSnfs.Snfs.FhandledbKeys

open ChlorosSnfs.Library.Runs
open ChlorosSnfs.Snfs.Fhandledb

/-- A call that changes the database, with the values drawn during it and the
bytes that lie behind the value it reads. -/
inductive Call where
  | nameFindOrInsert (filename : CString) (draws : List Fhandle)
      (beyond : Fhandle)
  | nameRemove (filename : CString) (beyond : Fhandle)

/-- The database and what has happened to it: the filenames given to
`name_find_or_insert`, the handles generated and the values returned. -/
structure State where
  db : Db
  inserted : List CString
  generated : List Fhandle
  returned : List Fhandle

def initial : State := ⟨emptyDb, [], [], []⟩

/-- The handle a `name_find_or_insert` with this result has generated. -/
def newlyGenerated (db : Db) (filename : CString) (handle : Fhandle) :
    List Fhandle :=
  if (find db filename.key).isNone then [handle] else []

/-- One call; `none` when it does not return. -/
def step (state : State) : Call → Option State
  | .nameFindOrInsert filename draws beyond =>
      match nameFindOrInsert beyond state.db draws filename with
      | none => none
      | some (handle, db, _) => some
          { db := db
            inserted := filename :: state.inserted
            generated := newlyGenerated state.db filename handle ++
              state.generated
            returned := handle :: state.returned }
  | .nameRemove filename beyond =>
      match nameRemove beyond state.db filename with
      | (.errExit, _) => none
      | (.returned _, db) => some { state with db := db }

/-- `get_file` gives filenames that were inserted and `name_find_or_insert`
gives handles that were generated. -/
def Unconfused (state : State) : Prop :=
  (∀ handle, getFile state.db handle = none ∨
    ∃ filename ∈ state.inserted,
      getFile state.db handle = some filename.key) ∧
  ∀ handle ∈ state.returned, handle ∈ state.generated

/-- No filename of seven bytes is inserted. -/
def NotSeven : Call → Prop
  | .nameFindOrInsert filename _ _ => filename.bytes.length ≠ 7
  | .nameRemove _ _ => True

/-- What a key of the map leads to. -/
def KeyedBySize (inserted : List CString) (generated : List Fhandle)
    (key value : Bytes) : Prop :=
  if key.length = 8 then ∃ filename ∈ inserted, value = filename.key
  else ∃ handle ∈ generated, value = handleBytes handle

structure Invariant (state : State) : Prop where
  keyedBySize : ∀ key value, state.db key = some value →
    KeyedBySize state.inserted state.generated key value
  returned : ∀ handle ∈ state.returned, handle ∈ state.generated

theorem invariant_initial : Invariant initial := by
  constructor
  · intro key value read
    cases read
  · intro handle member
    cases member

theorem keyedBySize_mono {inserted moreInserted : List CString}
    {generated moreGenerated : List Fhandle} {key value : Bytes}
    (keyed : KeyedBySize inserted generated key value)
    (insertedSubset : inserted ⊆ moreInserted)
    (generatedSubset : generated ⊆ moreGenerated) :
    KeyedBySize moreInserted moreGenerated key value := by
  rw [KeyedBySize] at *
  split
  · rename_i eight
    rw [if_pos eight] at keyed
    obtain ⟨filename, member, same⟩ := keyed
    exact ⟨filename, insertedSubset member, same⟩
  · rename_i notEight
    rw [if_neg notEight] at keyed
    obtain ⟨handle, member, same⟩ := keyed
    exact ⟨handle, generatedSubset member, same⟩

theorem keyedBySize_handleBytes_iff {inserted : List CString}
    {generated : List Fhandle} {handle : Fhandle} {value : Bytes} :
    KeyedBySize inserted generated (handleBytes handle) value ↔
      ∃ filename ∈ inserted, value = filename.key := by
  rw [KeyedBySize, if_pos (handleBytes_length handle)]

theorem keyedBySize_key_iff {inserted : List CString}
    {generated : List Fhandle} {filename : CString} {value : Bytes}
    (notSeven : filename.bytes.length ≠ 7) :
    KeyedBySize inserted generated filename.key value ↔
      ∃ handle ∈ generated, value = handleBytes handle := by
  rw [KeyedBySize, if_neg]
  rw [key_length]
  omega

theorem Invariant.unconfused {state : State} (invariant : Invariant state) :
    Unconfused state := by
  refine ⟨?_, invariant.returned⟩
  intro handle
  cases read : getFile state.db handle with
  | none => exact Or.inl rfl
  | some value =>
      obtain ⟨filename, member, same⟩ := keyedBySize_handleBytes_iff.mp
        (invariant.keyedBySize (handleBytes handle) value read)
      exact Or.inr ⟨filename, member, by rw [same]⟩

/-- A name found leads to a handle generated before. -/
theorem Invariant.of_found {state : State} (invariant : Invariant state)
    {filename : CString} {value : Bytes} (beyond : Fhandle)
    (notSeven : filename.bytes.length ≠ 7)
    (known : state.db filename.key = some value) :
    Invariant { state with
      inserted := filename :: state.inserted
      returned := readHandle value beyond :: state.returned } := by
  obtain ⟨old, member, rfl⟩ := (keyedBySize_key_iff notSeven).mp
    (invariant.keyedBySize filename.key value known)
  rw [readHandle_handleBytes]
  constructor
  · intro key other read
    exact keyedBySize_mono (invariant.keyedBySize key other read)
      (List.subset_cons_self _ _) (List.Subset.refl _)
  · intro other returned
    rcases List.mem_cons.mp returned with rfl | returned
    · exact member
    · exact invariant.returned other returned

/-- The two writes of `new_fhandle` put one entry under each kind of key. -/
theorem Invariant.of_generated {state : State} (invariant : Invariant state)
    {filename : CString} (handle : Fhandle)
    (notSeven : filename.bytes.length ≠ 7) :
    Invariant
      { db := paired state.db filename handle
        inserted := filename :: state.inserted
        generated := handle :: state.generated
        returned := handle :: state.returned } := by
  constructor
  · intro key value read
    simp only [paired_apply] at read
    split at read
    · rename_i isName
      cases read
      rw [isName, keyedBySize_key_iff notSeven]
      exact ⟨handle, List.mem_cons_self, rfl⟩
    · split at read
      · rename_i isHandle
        cases read
        rw [isHandle, keyedBySize_handleBytes_iff]
        exact ⟨filename, List.mem_cons_self, rfl⟩
      · exact keyedBySize_mono (invariant.keyedBySize key value read)
          (List.subset_cons_self _ _) (List.subset_cons_self _ _)
  · intro other returned
    rcases List.mem_cons.mp returned with rfl | returned
    · exact List.mem_cons_self
    · exact List.mem_cons_of_mem _ (invariant.returned other returned)

theorem step_invariant_nameFindOrInsert {state next : State}
    {filename : CString} {draws : List Fhandle} {beyond : Fhandle}
    (invariant : Invariant state) (notSeven : filename.bytes.length ≠ 7)
    (stepped : step state (.nameFindOrInsert filename draws beyond) =
      some next) : Invariant next := by
  simp only [step] at stepped
  cases called : nameFindOrInsert beyond state.db draws filename with
  | none =>
      rw [called] at stepped
      cases stepped
  | some result =>
      obtain ⟨handle, db, rest⟩ := result
      rw [called] at stepped
      cases stepped
      rcases nameFindOrInsert_eq_some called with
        ⟨value, known, rfl, rfl, _⟩ | ⟨unknown, _, rfl⟩
      · simp only [newlyGenerated, find, known, Option.isNone_some,
          Bool.false_eq_true, if_false, List.nil_append]
        exact invariant.of_found beyond notSeven known
      · simp only [newlyGenerated, find, unknown, Option.isNone_none, if_true,
          List.cons_append, List.nil_append]
        exact invariant.of_generated handle notSeven

/-- A removal takes keys away and nothing else, whichever keys it takes. -/
theorem step_invariant_nameRemove {state next : State} {filename : CString}
    {beyond : Fhandle} (invariant : Invariant state)
    (stepped : step state (.nameRemove filename beyond) = some next) :
    Invariant next := by
  have deleted := nameRemove_only_deletes beyond state.db filename
  simp only [step] at stepped
  split at stepped
  · cases stepped
  · rename_i removed db called
    rw [called] at deleted
    cases stepped
    constructor
    · intro key value read
      rcases deleted key with gone | kept
      · cases gone.symm.trans read
      · exact invariant.keyedBySize key value (kept.symm.trans read)
    · exact invariant.returned

/-- The invariant is kept by calls that insert no filename of seven bytes. -/
theorem step_invariant {state next : State} {call : Call}
    (invariant : Invariant state) (notSeven : NotSeven call)
    (stepped : step state call = some next) : Invariant next := by
  cases call with
  | nameFindOrInsert filename draws beyond =>
      exact step_invariant_nameFindOrInsert invariant notSeven stepped
  | nameRemove filename beyond =>
      exact step_invariant_nameRemove invariant stepped

theorem run_invariant {start final : State} {calls : List Call}
    (invariant : Invariant start) (notSeven : ∀ call ∈ calls, NotSeven call)
    (run : runLabels step start calls = some final) : Invariant final := by
  induction calls generalizing start with
  | nil =>
      cases Option.some.inj run
      exact invariant
  | cons call rest inductionHypothesis =>
      obtain ⟨next, first, remaining⟩ :=
        (runLabels_cons_eq_some step start final call rest).mp run
      exact inductionHypothesis
        (step_invariant invariant (notSeven call List.mem_cons_self) first)
        (fun other member => notSeven other (List.mem_cons_of_mem _ member))
        remaining

/-- In every run that inserts no filename of seven bytes, whatever it removes
and whatever values are drawn, the two kinds of keys are not confused. -/
theorem keys_unconfused_without_seven (calls : List Call) (final : State)
    (run : runLabels step initial calls = some final)
    (notSeven : ∀ call ∈ calls, NotSeven call) : Unconfused final :=
  (run_invariant invariant_initial notSeven run).unconfused

/-- A file named `a` is inserted, removed and inserted again. -/
def insertedAgain : List Call :=
  [.nameFindOrInsert ⟨[97], by decide⟩ [5] 0, .nameRemove ⟨[97], by decide⟩ 0,
    .nameFindOrInsert ⟨[97], by decide⟩ [5, 6] 0]

theorem keys_unconfused_without_seven_again :
    ∃ final, runLabels step initial insertedAgain = some final ∧
      Unconfused final := by
  have returns : (runLabels step initial insertedAgain).isSome := by decide
  obtain ⟨final, run⟩ := Option.isSome_iff_exists.mp returns
  refine ⟨final, run, keys_unconfused_without_seven _ _ run ?_⟩
  intro call member
  simp only [insertedAgain, List.mem_cons, List.not_mem_nil, or_false] at member
  rcases member with rfl | rfl | rfl
  · exact (by decide : [97].length ≠ 7)
  · trivial
  · exact (by decide : [97].length ≠ 7)

/-- The seven bytes of the filename `1234567`. -/
def sevenBytes : CString := ⟨[49, 50, 51, 52, 53, 54, 55], by decide⟩

/-- Asking for the handle whose bytes spell `1234567` and its NUL gives the
bytes of the handle drawn for that file. -/
theorem seven_bytes_confused :
    ∃ final, runLabels step initial
        [.nameFindOrInsert sevenBytes [1] 0] = some final ∧
      ¬ Unconfused final := by
  refine ⟨_, rfl, ?_⟩
  rintro ⟨files, _⟩
  rcases files 0x0037363534333231 with missing | ⟨filename, member, read⟩
  · exact absurd missing (by decide)
  · rw [List.mem_singleton.mp member] at read
    exact absurd read (by decide)

end ChlorosSnfs.Snfs.FhandledbKeys
