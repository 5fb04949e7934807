import Mathlib.Data.List.Forall2

/-!
# The layout of C structures

A structure is a list of members with their sizes and alignments.  An unpacked
one aligns each member and its own end; a packed one puts them side by side.
`Struct.place` is the object in memory, with any contents of the gaps.
-/

set_option autoImplicit false

namespace ChlorosSnfs.Library.StructLayout

universe u

structure Member where
  size : Nat
  align : Nat

structure Struct where
  packed : Bool
  members : List Member

/-- How far the next multiple of the alignment is. -/
def padding (offset align : Nat) : Nat :=
  (align - offset % align) % align

/-- The gap in front of a member when the bytes before `offset` are taken. -/
def gapBefore (packed : Bool) (offset : Nat) (member : Member) : Nat :=
  if packed then 0 else padding offset member.align

def offsetsFrom (packed : Bool) : Nat → List Member → List Nat
  | _, [] => []
  | offset, member :: rest =>
      let start := offset + gapBefore packed offset member
      start :: offsetsFrom packed (start + member.size) rest

def endFrom (packed : Bool) : Nat → List Member → Nat
  | offset, [] => offset
  | offset, member :: rest =>
      endFrom packed (offset + gapBefore packed offset member + member.size) rest

/-- `offsetof` of each member. -/
def Struct.offsets (struct : Struct) : List Nat :=
  offsetsFrom struct.packed 0 struct.members

/-- `alignof`. -/
def Struct.alignment (struct : Struct) : Nat :=
  if struct.packed then 1
  else struct.members.foldr (fun member align => max member.align align) 1

/-- Where the last member ends. -/
def Struct.finish (struct : Struct) : Nat :=
  endFrom struct.packed 0 struct.members

/-- `sizeof`. -/
def Struct.sizeof (struct : Struct) : Nat :=
  struct.finish + padding struct.finish struct.alignment

/-- The structure as a member of another one. -/
def Struct.member (struct : Struct) : Member :=
  ⟨struct.sizeof, struct.alignment⟩

variable {Byte : Type u}

/-- What the gap of `width` bytes at an offset holds. -/
def gapBytes (gap : Nat → Byte) (offset width : Nat) : List Byte :=
  (List.range width).map fun index => gap (offset + index)

def placeFrom (packed : Bool) (gap : Nat → Byte) :
    Nat → List Member → List (List Byte) → List Byte
  | offset, member :: members, value :: values =>
      let width := gapBefore packed offset member
      gapBytes gap offset width ++ value ++
        placeFrom packed gap (offset + width + member.size) members values
  | _, _, _ => []

/-- The object with these bytes in its members. -/
def Struct.place (struct : Struct) (gap : Nat → Byte)
    (values : List (List Byte)) : List Byte :=
  placeFrom struct.packed gap 0 struct.members values ++
    gapBytes gap struct.finish (padding struct.finish struct.alignment)

/-- Each value is as long as its member. -/
abbrev Fills (members : List Member) (values : List (List Byte)) : Prop :=
  List.Forall₂ (fun member value => value.length = member.size) members values

/-- These bytes stand at this offset. -/
def HoldsAt (bytes : List Byte) (offset : Nat) (value : List Byte) : Prop :=
  ∃ before after, bytes = before ++ value ++ after ∧ before.length = offset

theorem HoldsAt.refl (bytes : List Byte) : HoldsAt bytes 0 bytes :=
  ⟨[], [], (List.append_nil bytes).symm, rfl⟩

theorem HoldsAt.within {bytes value : List Byte} {offset : Nat}
    (holds : HoldsAt bytes offset value) (before after : List Byte) :
    HoldsAt (before ++ bytes ++ after) (before.length + offset) value := by
  obtain ⟨left, right, rfl, rfl⟩ := holds
  refine ⟨before ++ left, right ++ after, ?_, List.length_append⟩
  simp only [List.append_assoc]

/-- What stands in a value stands in the bytes around it. -/
theorem HoldsAt.nested {bytes value part : List Byte} {offset inside : Nat}
    (holds : HoldsAt bytes offset value) (holdsPart : HoldsAt value inside part) :
    HoldsAt bytes (offset + inside) part := by
  obtain ⟨before, after, rfl, rfl⟩ := holds
  exact holdsPart.within before after

@[simp]
theorem gapBytes_length (gap : Nat → Byte) (offset width : Nat) :
    (gapBytes gap offset width).length = width := by
  simp [gapBytes]

theorem placeFrom_length {packed : Bool} {gap : Nat → Byte} {offset : Nat}
    {members : List Member} {values : List (List Byte)}
    (fills : Fills members values) :
    offset + (placeFrom packed gap offset members values).length =
      endFrom packed offset members := by
  induction fills generalizing offset with
  | nil => rfl
  | cons size _ inductionHypothesis =>
      rw [endFrom, ← inductionHypothesis, placeFrom]
      simp only [List.length_append, gapBytes_length, size]
      omega

theorem Struct.placeFrom_length_eq {struct : Struct} {gap : Nat → Byte}
    {values : List (List Byte)} (fills : Fills struct.members values) :
    (placeFrom struct.packed gap 0 struct.members values).length =
      struct.finish := by
  have length : 0 + (placeFrom struct.packed gap 0 struct.members values).length =
      struct.finish := placeFrom_length fills
  omega

/-- The object takes `sizeof` bytes. -/
theorem Struct.place_length {struct : Struct} {gap : Nat → Byte}
    {values : List (List Byte)} (fills : Fills struct.members values) :
    (struct.place gap values).length = struct.sizeof := by
  rw [Struct.place, Struct.sizeof, List.length_append, gapBytes_length,
    placeFrom_length_eq fills]

theorem placeFrom_holdsAt {packed : Bool} {gap : Nat → Byte} {offset : Nat}
    {members : List Member} {values : List (List Byte)}
    (fills : Fills members values) :
    ∀ start value, (start, value) ∈
        (offsetsFrom packed offset members).zip values →
      ∃ inside, start = offset + inside ∧
        HoldsAt (placeFrom packed gap offset members values) inside value := by
  induction fills generalizing offset with
  | nil =>
      intro start value member
      cases member
  | @cons member first members values size fills inductionHypothesis =>
      intro start value placed
      rw [offsetsFrom, List.zip_cons_cons, List.mem_cons] at placed
      rcases placed with here | later
      · cases here
        exact ⟨gapBefore packed offset member, rfl, _, _, rfl,
          gapBytes_length gap offset _⟩
      · obtain ⟨inside, rfl, holds⟩ := inductionHypothesis start value later
        refine ⟨gapBefore packed offset member + member.size + inside,
          by omega, ?_⟩
        have shifted := holds.within
          (gapBytes gap offset (gapBefore packed offset member) ++ first) []
        rw [List.append_nil, List.length_append, gapBytes_length, size]
          at shifted
        exact shifted

/-- Each member stands at its `offsetof`. -/
theorem Struct.place_holdsAt {struct : Struct} {gap : Nat → Byte}
    {values : List (List Byte)} (fills : Fills struct.members values)
    (index : Nat) {start : Nat} {value : List Byte}
    (starts : struct.offsets[index]? = some start)
    (found : values[index]? = some value) :
    HoldsAt (struct.place gap values) start value := by
  have placed : (start, value) ∈ struct.offsets.zip values :=
    List.mem_of_getElem? (List.getElem?_zip_eq_some.mpr ⟨starts, found⟩)
  obtain ⟨inside, same, holds⟩ := placeFrom_holdsAt fills start value placed
  rw [same]
  exact holds.within [] _

theorem placeFrom_injective {packed : Bool} {gap otherGap : Nat → Byte}
    {offset : Nat} {members : List Member}
    {values otherValues : List (List Byte)} (fills : Fills members values)
    (otherFills : Fills members otherValues)
    (same : placeFrom packed gap offset members values =
      placeFrom packed otherGap offset members otherValues) :
    values = otherValues := by
  induction fills generalizing offset otherValues with
  | nil =>
      cases otherFills
      rfl
  | cons size _ inductionHypothesis =>
      cases otherFills with
      | cons otherSize otherRest =>
          simp only [placeFrom, List.append_assoc] at same
          obtain ⟨_, behindGap⟩ := List.append_inj same (by simp)
          obtain ⟨first, rest⟩ :=
            List.append_inj behindGap (size.trans otherSize.symm)
          rw [first, inductionHypothesis otherRest rest]

/-- Objects that differ in their gaps only have the same members. -/
theorem Struct.place_injective {struct : Struct} {gap otherGap : Nat → Byte}
    {values otherValues : List (List Byte)}
    (fills : Fills struct.members values)
    (otherFills : Fills struct.members otherValues)
    (same : struct.place gap values = struct.place otherGap otherValues) :
    values = otherValues := by
  have lengths : (placeFrom struct.packed gap 0 struct.members values).length =
      (placeFrom struct.packed otherGap 0 struct.members otherValues).length := by
    rw [placeFrom_length_eq fills, placeFrom_length_eq otherFills]
  exact placeFrom_injective fills otherFills (List.append_inj same lengths).1

theorem length_flatten_of_wide {blocks : List (List Byte)} {width : Nat}
    (wide : ∀ block ∈ blocks, block.length = width) :
    blocks.flatten.length = width * blocks.length := by
  induction blocks with
  | nil => rfl
  | cons first rest inductionHypothesis =>
      have later := inductionHypothesis
        fun block member => wide block (List.mem_cons_of_mem _ member)
      rw [List.flatten_cons, List.length_append, later,
        wide first List.mem_cons_self, List.length_cons, Nat.mul_succ,
        Nat.add_comm]

/-- One of several blocks of the same length in a row. -/
theorem holdsAt_flatten {blocks : List (List Byte)} {width : Nat}
    (wide : ∀ block ∈ blocks, block.length = width) {index : Nat}
    {block : List Byte} (found : blocks[index]? = some block) :
    HoldsAt blocks.flatten (width * index) block := by
  induction blocks generalizing index with
  | nil => cases found
  | cons first rest inductionHypothesis =>
      cases index with
      | zero =>
          cases found
          exact (HoldsAt.refl block).within [] rest.flatten
      | succ index =>
          have later := inductionHypothesis
            (fun block member => wide block (List.mem_cons_of_mem _ member))
            found
          have shifted := later.within first []
          rw [List.append_nil, wide first List.mem_cons_self] at shifted
          rw [List.flatten_cons, Nat.mul_succ, Nat.add_comm]
          exact shifted

/-! ## Structures without gaps -/

/-- The sizes of the members together. -/
def totalSize (members : List Member) : Nat :=
  members.foldr (fun member total => member.size + total) 0

theorem le_endFrom (packed : Bool) (offset : Nat) (members : List Member) :
    offset + totalSize members ≤ endFrom packed offset members := by
  induction members generalizing offset with
  | nil => exact Nat.le_refl offset
  | cons member rest inductionHypothesis =>
      have more := inductionHypothesis
        (offset + gapBefore packed offset member + member.size)
      rw [endFrom, totalSize, List.foldr_cons, ← totalSize]
      omega

theorem placeFrom_of_gapless {packed : Bool} {gap : Nat → Byte} {offset : Nat}
    {members : List Member} {values : List (List Byte)}
    (fills : Fills members values)
    (gapless : endFrom packed offset members = offset + totalSize members) :
    placeFrom packed gap offset members values = values.flatten := by
  induction fills generalizing offset with
  | nil => rfl
  | @cons member value members values _ fills inductionHypothesis =>
      have atLeast := le_endFrom packed
        (offset + gapBefore packed offset member + member.size) members
      rw [endFrom, totalSize, List.foldr_cons, ← totalSize] at gapless
      have noGap : gapBefore packed offset member = 0 := by omega
      rw [noGap] at gapless
      rw [placeFrom, List.flatten_cons]
      simp only [noGap]
      rw [inductionHypothesis (by omega)]
      rfl

/-- As large as its members together. -/
def Struct.Gapless (struct : Struct) : Prop :=
  struct.sizeof = totalSize struct.members

/-- Without gaps the object is its members in a row. -/
theorem Struct.place_of_gapless {struct : Struct} {gap : Nat → Byte}
    {values : List (List Byte)} (fills : Fills struct.members values)
    (gapless : struct.Gapless) : struct.place gap values = values.flatten := by
  have atLeast := le_endFrom struct.packed 0 struct.members
  have finish : endFrom struct.packed 0 struct.members = struct.finish := rfl
  rw [Struct.Gapless, Struct.sizeof] at gapless
  have noTail : padding struct.finish struct.alignment = 0 := by omega
  rw [Struct.place, noTail, placeFrom_of_gapless fills (by omega)]
  exact List.append_nil _

end ChlorosSnfs.Library.StructLayout
