import Mathlib.Data.List.Induction
import Mathlib.Data.List.Basic

/-!
# Slash-separated paths

A path is a list of bytes.  Its pieces are its maximal runs without a slash;
`joined` writes pieces back with a slash before each.
-/

set_option autoImplicit false

namespace ChlorosSnfs.Library.Paths

def slash : UInt8 := 47

/-- What a piece of a path looks like. -/
def Piece (piece : List UInt8) : Prop := piece ≠ [] ∧ slash ∉ piece

def pieces (path : List UInt8) : List (List UInt8) :=
  (path.splitOn slash).filter (· ≠ [])

def joined : List (List UInt8) → List UInt8
  | [] => [slash]
  | first :: rest => slash :: first ++ rest.flatMap (slash :: ·)

@[simp]
theorem pieces_nil : pieces [] = [] := by
  simp [pieces]

theorem pieces_append_slash (before after : List UInt8) :
    pieces (before ++ slash :: after) = pieces before ++ pieces after := by
  rw [pieces, List.splitOn_append_cons_self, List.filter_append]
  rfl

theorem pieces_slash (after : List UInt8) :
    pieces (slash :: after) = pieces after :=
  pieces_append_slash [] after

theorem pieces_of_piece {piece : List UInt8} (isPiece : Piece piece) :
    pieces piece = [piece] := by
  rw [pieces, List.splitOn_eq_singleton isPiece.2]
  simp [isPiece.1]

/-- A run between slashes has the bytes of its path, and no slash. -/
theorem mem_of_mem_splitOn {path piece : List UInt8} {byte : UInt8}
    (member : piece ∈ path.splitOn slash) (inside : byte ∈ piece) :
    byte ∈ path ∧ byte ≠ slash := by
  induction path generalizing piece with
  | nil =>
      rw [List.splitOn_nil, List.mem_singleton] at member
      rw [member] at inside
      cases inside
  | cons first rest inductionHypothesis =>
      rw [List.splitOn_cons_eq_if_modifyHead] at member
      split at member
      · rcases List.mem_cons.mp member with rfl | later
        · cases inside
        · exact (inductionHypothesis later inside).imp_left
            (List.mem_cons_of_mem first)
      · rename_i notSlash
        cases split : rest.splitOn slash with
        | nil => simp [split] at member
        | cons head others =>
            rw [split] at inductionHypothesis member
            rcases List.mem_cons.mp member with rfl | later
            · rcases List.mem_cons.mp inside with rfl | inside
              · refine ⟨List.mem_cons_self, ?_⟩
                rintro rfl
                exact notSlash (by simp)
              · exact (inductionHypothesis List.mem_cons_self inside).imp_left
                  (List.mem_cons_of_mem first)
            · exact (inductionHypothesis (List.mem_cons_of_mem _ later)
                inside).imp_left (List.mem_cons_of_mem first)

theorem length_le_of_mem_splitOn {path piece : List UInt8}
    (member : piece ∈ path.splitOn slash) : piece.length ≤ path.length := by
  induction path generalizing piece with
  | nil =>
      rw [List.splitOn_nil, List.mem_singleton] at member
      exact member ▸ Nat.le_refl _
  | cons first rest inductionHypothesis =>
      rw [List.length_cons]
      rw [List.splitOn_cons_eq_if_modifyHead] at member
      split at member
      · rcases List.mem_cons.mp member with rfl | later
        · exact Nat.zero_le _
        · exact Nat.le_succ_of_le (inductionHypothesis later)
      · cases split : rest.splitOn slash with
        | nil => simp [split] at member
        | cons head others =>
            rw [split] at inductionHypothesis member
            rcases List.mem_cons.mp member with rfl | later
            · have atHead := inductionHypothesis List.mem_cons_self
              rw [List.length_cons]
              omega
            · have atLater := inductionHypothesis (List.mem_cons_of_mem _ later)
              omega

theorem length_le_of_mem_pieces {path piece : List UInt8}
    (member : piece ∈ pieces path) : piece.length ≤ path.length := by
  rw [pieces, List.mem_filter] at member
  exact length_le_of_mem_splitOn member.1

theorem piece_of_mem_pieces {path piece : List UInt8}
    (member : piece ∈ pieces path) : Piece piece := by
  rw [pieces, List.mem_filter] at member
  refine ⟨by simpa using member.2, ?_⟩
  intro inside
  exact (mem_of_mem_splitOn member.1 inside).2 rfl

theorem mem_of_mem_pieces {path piece : List UInt8} {byte : UInt8}
    (member : piece ∈ pieces path) (inside : byte ∈ piece) : byte ∈ path := by
  rw [pieces, List.mem_filter] at member
  exact (mem_of_mem_splitOn member.1 inside).1

theorem joined_eq_flatMap {parts : List (List UInt8)} (nonempty : parts ≠ []) :
    joined parts = parts.flatMap (slash :: ·) := by
  cases parts with
  | nil => exact absurd rfl nonempty
  | cons first rest => rfl

theorem mem_joined {parts : List (List UInt8)} {byte : UInt8}
    (inside : byte ∈ joined parts) :
    byte = slash ∨ ∃ part ∈ parts, byte ∈ part := by
  cases parts with
  | nil => exact Or.inl (List.mem_singleton.mp inside)
  | cons first rest =>
      rw [joined_eq_flatMap (List.cons_ne_nil first rest)] at inside
      obtain ⟨part, member, inPart⟩ := List.mem_flatMap.mp inside
      rcases List.mem_cons.mp inPart with isSlash | inPart
      · exact Or.inl isSlash
      · exact Or.inr ⟨part, member, inPart⟩

/-- One more piece is written behind a slash. -/
theorem joined_concat {parts : List (List UInt8)} (nonempty : parts ≠ [])
    (piece : List UInt8) :
    joined (parts ++ [piece]) = joined parts ++ slash :: piece := by
  rw [joined_eq_flatMap (by simp), joined_eq_flatMap nonempty]
  simp

theorem pieces_flatMap {parts : List (List UInt8)}
    (arePieces : ∀ piece ∈ parts, Piece piece) :
    pieces (parts.flatMap (slash :: ·)) = parts := by
  induction parts using List.reverseRecOn with
  | nil => rfl
  | append_singleton parts piece inductionHypothesis =>
      have before : ∀ other ∈ parts, Piece other := by
        intro other member
        exact arePieces other (List.mem_append_left _ member)
      rw [List.flatMap_append, List.flatMap_singleton, pieces_append_slash,
        inductionHypothesis before, pieces_of_piece (arePieces piece (by simp))]

theorem pieces_joined {parts : List (List UInt8)}
    (arePieces : ∀ piece ∈ parts, Piece piece) : pieces (joined parts) = parts := by
  cases parts with
  | nil => rfl
  | cons first rest => exact pieces_flatMap arePieces

/-- A path that ends in a piece does not end in a slash. -/
theorem getLast?_joined_ne_slash {parts : List (List UInt8)}
    (nonempty : parts ≠ []) (arePieces : ∀ piece ∈ parts, Piece piece) :
    (joined parts).getLast? ≠ some slash := by
  obtain ⟨before, piece, rfl⟩ :=
    (List.eq_nil_or_concat' parts).resolve_left nonempty
  have isPiece := arePieces piece (by simp)
  have ends : (joined (before ++ [piece])).getLast? = piece.getLast? := by
    rw [joined_eq_flatMap (by simp), List.flatMap_append,
      List.flatMap_singleton, List.getLast?_append_of_ne_nil _ (by simp),
      List.getLast?_cons_of_ne_nil isPiece.1]
  rw [ends]
  intro last
  exact isPiece.2 (List.mem_of_getLast? last)

/-- A joined path that is cut off ends in a part of one of its pieces, or in
the slash before it. -/
theorem take_flatMap {parts : List (List UInt8)} {count : Nat}
    (positive : 0 < count)
    (within : count ≤ (parts.flatMap (slash :: ·)).length) :
    ∃ before piece after part, parts = before ++ piece :: after ∧
      part <+: piece ∧
      (parts.flatMap (slash :: ·)).take count =
        before.flatMap (slash :: ·) ++ slash :: part := by
  induction parts generalizing count with
  | nil =>
      rw [List.flatMap_nil, List.length_nil] at within
      omega
  | cons first rest inductionHypothesis =>
      by_cases inFirst : count ≤ first.length + 1
      · refine ⟨[], first, rest, first.take (count - 1), rfl,
          List.take_prefix _ _, ?_⟩
        cases count with
        | zero => omega
        | succ less =>
            rw [List.flatMap_cons, List.cons_append, List.take_succ_cons,
              List.take_append_of_le_length (by omega)]
            rfl
      · rw [List.flatMap_cons, List.length_append, List.length_cons] at within
        have positiveRest : 0 < count - (first.length + 1) := by omega
        obtain ⟨before, piece, after, part, split, isPart, cut⟩ :=
          inductionHypothesis positiveRest (by omega)
        refine ⟨first :: before, piece, after, part, by rw [split]; rfl, isPart, ?_⟩
        have whole : (slash :: first).length = first.length + 1 := rfl
        rw [List.flatMap_cons, List.take_append, whole, cut,
          List.take_of_length_le (by rw [whole]; omega), List.flatMap_cons,
          List.append_assoc]

end ChlorosSnfs.Library.Paths
