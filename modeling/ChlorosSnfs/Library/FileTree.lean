import Mathlib.Data.List.Induction
import Mathlib.Data.List.Basic
import Mathlib.Data.List.Infix

/-!
# A tree of inodes and paths into it

Places are lists of names below the root.  A `DirTree` says which inode is at each
place; its fields keep the root a directory, every inode below a directory, and
the number of the next inode unused.  There are no links: `up` leads to the
place one name shorter.  The five changes are those of POSIX, without their
reasons for failing.
-/

set_option autoImplicit false

namespace ChlorosSnfs.Library.FileTree

universe u

/-- A component of a path: `.`, `..` or a name. -/
inductive Step (ν : Type u) where
  | here
  | up
  | down (name : ν)
  deriving DecidableEq, Repr

/-- A path from the root, and whether it ends in a slash. -/
structure DirPath (ν : Type u) where
  steps : List (Step ν)
  slash : Bool

structure Node where
  ino : Nat
  isDir : Bool
  deriving DecidableEq, Repr

/-- `places` lists every place with an inode, and perhaps others. -/
structure DirTree (ν : Type u) where
  node : List ν → Option Node
  places : List (List ν)
  nextIno : Nat
  root : ∃ ino, node [] = some ⟨ino, true⟩
  parents : ∀ place name, node (place ++ [name]) ≠ none →
    ∃ ino, node place = some ⟨ino, true⟩
  listed : ∀ place, node place ≠ none → place ∈ places
  bounded : ∀ place found, node place = some found → found.ino < nextIno

inductive WalkError where
  | missing
  | notDirectory
  deriving DecidableEq, Repr

section Walking
variable {ν : Type u}

namespace DirTree

/-- The root alone. -/
def onlyRoot : DirTree ν where
  node
    | [] => some ⟨0, true⟩
    | _ :: _ => none
  places := [[]]
  nextIno := 1
  root := ⟨0, rfl⟩
  parents := by
    intro place name found
    cases place <;> exact absurd rfl found
  listed := by
    intro place found
    cases place with
    | nil => exact List.mem_singleton_self _
    | cons name rest => exact absurd rfl found
  bounded := by
    intro place found here
    cases place with
    | nil =>
        cases here
        exact Nat.one_pos
    | cons name rest => cases here

def isDirAt (tree : DirTree ν) (place : List ν) : Bool :=
  ((tree.node place).map Node.isDir).getD false

/-- Following a path: every step is taken from a directory. -/
def walk (tree : DirTree ν) : List ν → List (Step ν) → Except WalkError (List ν)
  | place, [] => .ok place
  | place, step :: rest =>
      if tree.isDirAt place then
        match step with
        | .here => walk tree place rest
        | .up => walk tree place.dropLast rest
        | .down name =>
            match tree.node (place ++ [name]) with
            | none => .error .missing
            | some _ => walk tree (place ++ [name]) rest
      else .error .notDirectory

/-- A slash at the end asks for a directory. -/
def resolve (tree : DirTree ν) (path : DirPath ν) : Except WalkError (List ν) :=
  tree.walk [] (path.steps ++ if path.slash then [.here] else [])

end DirTree

/-- Where steps lead if every one of them can be taken. -/
def normal (place : List ν) (steps : List (Step ν)) : List ν :=
  steps.foldl (fun place step =>
    match step with
    | .here => place
    | .up => place.dropLast
    | .down name => place ++ [name]) place

theorem normal_append (place : List ν) (first second : List (Step ν)) :
    normal place (first ++ second) = normal (normal place first) second := by
  rw [normal, List.foldl_append]
  rfl

/-- A place holds names that were walked down to. -/
theorem mem_normal {place : List ν} {steps : List (Step ν)} {name : ν}
    (member : name ∈ normal place steps) : name ∈ place ∨ .down name ∈ steps := by
  induction steps generalizing place with
  | nil => exact Or.inl member
  | cons step rest inductionHypothesis =>
      have shift : normal place (step :: rest) = normal (normal place [step]) rest :=
        normal_append place [step] rest
      rw [shift] at member
      rcases inductionHypothesis member with first | later
      · cases step with
        | here => exact Or.inl first
        | up => exact Or.inl (List.mem_of_mem_dropLast first)
        | down other =>
            rcases List.mem_append.mp first with before | last
            · exact Or.inl before
            · rw [List.mem_singleton.mp last]
              exact Or.inr List.mem_cons_self
      · exact Or.inr (List.mem_cons_of_mem _ later)

theorem normal_down (place names : List ν) :
    normal place (names.map .down) = place ++ names := by
  induction names generalizing place with
  | nil => simp [normal]
  | cons name rest inductionHypothesis =>
      have first : normal place ((name :: rest).map .down) =
          normal (place ++ [name]) (rest.map .down) := rfl
      rw [first, inductionHypothesis]
      simp

namespace DirTree

theorem isDirAt_iff {tree : DirTree ν} {place : List ν} :
    tree.isDirAt place = true ↔ ∃ ino, tree.node place = some ⟨ino, true⟩ := by
  rw [isDirAt]
  cases found : tree.node place with
  | none => simp
  | some node =>
      obtain ⟨ino, isDir⟩ := node
      simp

theorem isDirAt_root (tree : DirTree ν) : tree.isDirAt [] = true :=
  isDirAt_iff.mpr tree.root

theorem node_ne_none_of_isDirAt {tree : DirTree ν} {place : List ν}
    (directory : tree.isDirAt place = true) : tree.node place ≠ none := by
  obtain ⟨ino, found⟩ := isDirAt_iff.mp directory
  rw [found]
  exact Option.some_ne_none _

/-- An inode's directories are all there. -/
theorem node_dropLast_ne_none {tree : DirTree ν} {place : List ν}
    (found : tree.node place ≠ none) : tree.node place.dropLast ≠ none := by
  rcases List.eq_nil_or_concat' place with rfl | ⟨parent, name, rfl⟩
  · exact found
  · rw [List.dropLast_concat]
    obtain ⟨ino, directory⟩ := tree.parents parent name found
    rw [directory]
    exact Option.some_ne_none _

theorem isDirAt_of_below {tree : DirTree ν} {place rest : List ν}
    (nonempty : rest ≠ []) (found : tree.node (place ++ rest) ≠ none) :
    tree.isDirAt place = true := by
  induction rest using List.reverseRecOn with
  | nil => exact absurd rfl nonempty
  | append_singleton rest name inductionHypothesis =>
      rw [← List.append_assoc] at found
      have directory := tree.parents _ name found
      by_cases last : rest = []
      · subst last
        rw [List.append_nil] at directory
        exact isDirAt_iff.mpr directory
      · apply inductionHypothesis last
        obtain ⟨ino, here⟩ := directory
        rw [here]
        exact Option.some_ne_none _

/-! ## Walking -/

theorem walk_cons_ok {tree : DirTree ν} {place final : List ν} {step : Step ν}
    {rest : List (Step ν)} :
    tree.walk place (step :: rest) = .ok final ↔
      tree.isDirAt place = true ∧
        (∀ name, step = .down name → tree.node (place ++ [name]) ≠ none) ∧
        tree.walk (normal place [step]) rest = .ok final := by
  rw [walk.eq_def]
  by_cases directory : tree.isDirAt place = true
  · simp only [directory, if_true, true_and]
    cases step with
    | here => simp [normal]
    | up => simp [normal]
    | down name => cases found : tree.node (place ++ [name]) <;> simp [normal, found]
  · simp [directory]

theorem walk_cons {tree : DirTree ν} {place : List ν} {step : Step ν}
    (rest : List (Step ν)) (directory : tree.isDirAt place = true)
    (known : ∀ name, step = .down name → tree.node (place ++ [name]) ≠ none) :
    tree.walk place (step :: rest) = tree.walk (normal place [step]) rest := by
  rw [walk.eq_def]
  simp only [directory, if_true]
  cases step with
  | here => simp [normal]
  | up => simp [normal]
  | down name =>
      obtain ⟨node, here⟩ := Option.ne_none_iff_exists'.mp (known name rfl)
      simp [normal, here]

theorem walk_append {tree : DirTree ν} {place middle : List ν}
    {first : List (Step ν)} (walked : tree.walk place first = .ok middle)
    (second : List (Step ν)) :
    tree.walk place (first ++ second) = tree.walk middle second := by
  induction first generalizing place with
  | nil =>
      cases walked
      rfl
  | cons step rest inductionHypothesis =>
      obtain ⟨directory, known, later⟩ := walk_cons_ok.mp walked
      rw [List.cons_append, walk_cons _ directory known]
      exact inductionHypothesis later

theorem walk_eq_normal {tree : DirTree ν} {place final : List ν}
    {steps : List (Step ν)} (walked : tree.walk place steps = .ok final) :
    final = normal place steps := by
  induction steps generalizing place with
  | nil =>
      cases walked
      rfl
  | cons step rest inductionHypothesis =>
      obtain ⟨_, _, later⟩ := walk_cons_ok.mp walked
      exact inductionHypothesis later

/-- Walking stays on inodes. -/
theorem walk_node_ne_none {tree : DirTree ν} {place final : List ν}
    {steps : List (Step ν)} (start : tree.node place ≠ none)
    (walked : tree.walk place steps = .ok final) :
    tree.node final ≠ none := by
  induction steps generalizing place with
  | nil =>
      cases walked
      exact start
  | cons step rest inductionHypothesis =>
      obtain ⟨directory, known, later⟩ := walk_cons_ok.mp walked
      apply inductionHypothesis _ later
      cases step with
      | here => exact start
      | up => exact node_dropLast_ne_none start
      | down name => exact known name rfl

theorem resolve_node_ne_none {tree : DirTree ν} {path : DirPath ν} {final : List ν}
    (resolved : tree.resolve path = .ok final) : tree.node final ≠ none :=
  walk_node_ne_none (node_ne_none_of_isDirAt tree.isDirAt_root) resolved

theorem resolve_eq_normal {tree : DirTree ν} {path : DirPath ν} {final : List ν}
    (resolved : tree.resolve path = .ok final) :
    final = normal [] path.steps := by
  have same := walk_eq_normal resolved
  rw [normal_append] at same
  cases slash : path.slash <;> rw [slash] at same <;> exact same

/-- Names can be walked exactly when all directories on the way and the last
inode are there. -/
theorem walk_down_iff {tree : DirTree ν} {place names : List ν}
    (start : tree.node place ≠ none) :
    (∃ final, tree.walk place (names.map .down) = .ok final) ↔
      tree.node (place ++ names) ≠ none := by
  induction names generalizing place with
  | nil => simp [walk, start]
  | cons name rest inductionHypothesis =>
      have shift : place ++ name :: rest = (place ++ [name]) ++ rest := by simp
      rw [List.map_cons]
      simp only [walk_cons_ok]
      constructor
      · rintro ⟨final, _, known, later⟩
        rw [shift]
        exact (inductionHypothesis (known name rfl)).mp ⟨final, later⟩
      · intro found
        have directory := isDirAt_of_below (List.cons_ne_nil name rest) found
        have first : tree.node (place ++ [name]) ≠ none := by
          by_cases last : rest = []
          · subst last
            exact found
          · rw [shift] at found
            exact node_ne_none_of_isDirAt (isDirAt_of_below last found)
        rw [shift] at found
        obtain ⟨final, later⟩ := (inductionHypothesis first).mpr found
        refine ⟨final, directory, ?_, later⟩
        intro other same
        cases same
        exact first

/-- Names lead to the place they spell, if it is there. -/
theorem walk_down {tree : DirTree ν} {names : List ν}
    (found : tree.node names ≠ none) :
    tree.walk [] (names.map .down) = .ok names := by
  have start := node_ne_none_of_isDirAt tree.isDirAt_root
  obtain ⟨final, walked⟩ := (walk_down_iff start).mpr found
  have same := walk_eq_normal walked
  rw [normal_down, List.nil_append] at same
  rw [walked, same]

end DirTree

end Walking

section Changing
variable {ν : Type u} [DecidableEq ν]

/-! ## Changing a tree -/

/-- A name in a directory of the tree, taken or not. -/
structure Entry (tree : DirTree ν) where
  parent : List ν
  name : ν
  directory : tree.isDirAt parent = true

def Entry.place {tree : DirTree ν} (entry : Entry tree) : List ν :=
  entry.parent ++ [entry.name]

namespace DirTree

omit [DecidableEq ν] in
theorem eq_parent_of_isDirAt {tree : DirTree ν} {place : List ν} {name : ν}
    (found : tree.node (place ++ [name]) ≠ none) :
    tree.isDirAt place = true :=
  isDirAt_iff.mpr (tree.parents place name found)

/-- A new inode at a free name. -/
def put (tree : DirTree ν) (entry : Entry tree) (isDir : Bool)
    (free : tree.node entry.place = none) : DirTree ν where
  node place :=
    if place = entry.place then some ⟨tree.nextIno, isDir⟩ else tree.node place
  places := entry.place :: tree.places
  nextIno := tree.nextIno + 1
  root := by
    rw [if_neg (by simp [Entry.place])]
    exact tree.root
  parents := by
    have parentKept : ∀ place, tree.isDirAt place = true →
        place ≠ entry.place := by
      rintro place directory rfl
      obtain ⟨ino, found⟩ := isDirAt_iff.mp directory
      rw [free] at found
      cases found
    intro place name found
    have directory : tree.isDirAt place = true := by
      by_cases new : place ++ [name] = entry.place
      · obtain ⟨same, _⟩ := List.append_inj' new rfl
        rw [same]
        exact entry.directory
      · rw [if_neg new] at found
        exact eq_parent_of_isDirAt found
    rw [if_neg (parentKept place directory)]
    exact isDirAt_iff.mp directory
  listed := by
    intro place found
    by_cases new : place = entry.place
    · simp [new]
    · rw [if_neg new] at found
      exact List.mem_cons_of_mem _ (tree.listed place found)
  bounded := by
    intro place found here
    by_cases new : place = entry.place
    · rw [if_pos new] at here
      cases here
      exact Nat.lt_succ_self _
    · rw [if_neg new] at here
      exact Nat.lt_succ_of_lt (tree.bounded place found here)

/-- Nothing lies below a place. -/
def isLeaf (tree : DirTree ν) (place : List ν) : Bool :=
  tree.places.all fun other =>
    !(decide (other.dropLast = place ∧ other ≠ []) && (tree.node other).isSome)

theorem isLeaf_iff {tree : DirTree ν} {place : List ν} :
    tree.isLeaf place = true ↔ ∀ name, tree.node (place ++ [name]) = none := by
  rw [isLeaf, List.all_eq_true]
  constructor
  · intro all name
    by_contra found
    have this := all _ (tree.listed _ found)
    obtain ⟨node, here⟩ := Option.ne_none_iff_exists'.mp found
    simp [here] at this
  · intro none other member
    simp only [Bool.not_eq_true', Bool.and_eq_false_iff, decide_eq_false_iff_not]
    by_cases child : other.dropLast = place ∧ other ≠ []
    · right
      obtain ⟨rfl, nonempty⟩ := child
      have here := none (other.getLast nonempty)
      rw [List.dropLast_append_getLast nonempty] at here
      rw [here]
      rfl
    · exact Or.inl child

/-- A leaf below the root goes. -/
def remove (tree : DirTree ν) (entry : Entry tree)
    (leaf : ∀ name, tree.node (entry.place ++ [name]) = none) : DirTree ν where
  node place := if place = entry.place then none else tree.node place
  places := tree.places
  nextIno := tree.nextIno
  root := by
    rw [if_neg (by simp [Entry.place])]
    exact tree.root
  parents := by
    intro place name found
    by_cases gone : place ++ [name] = entry.place
    · rw [if_pos gone] at found
      exact absurd rfl found
    · rw [if_neg gone] at found
      rw [if_neg]
      · exact tree.parents place name found
      · rintro rfl
        exact found (leaf name)
  listed := by
    intro place found
    by_cases gone : place = entry.place
    · rw [if_pos gone] at found
      exact absurd rfl found
    · rw [if_neg gone] at found
      exact tree.listed place found
  bounded := by
    intro place found here
    by_cases gone : place = entry.place
    · rw [if_pos gone] at here
      cases here
    · rw [if_neg gone] at here
      exact tree.bounded place found here

/-- What is at a place after the inode at `source` has gone to `target` with
everything below it. -/
def movedNode (tree : DirTree ν) (source target place : List ν) : Option Node :=
  if target <+: place then tree.node (source ++ place.drop target.length)
  else if source <+: place then none
  else tree.node place

theorem movedNode_below (tree : DirTree ν) (source target rest : List ν) :
    tree.movedNode source target (target ++ rest) = tree.node (source ++ rest) := by
  rw [movedNode, if_pos (List.prefix_append target rest), List.drop_left]

theorem movedNode_other (tree : DirTree ν) {source target place : List ν}
    (notTarget : ¬ target <+: place) (notSource : ¬ source <+: place) :
    tree.movedNode source target place = tree.node place := by
  rw [movedNode, if_neg notTarget, if_neg notSource]

/-- The inode of one name goes to another that is not below it. -/
def move (tree : DirTree ν) (source target : Entry tree)
    (notBelow : ¬ source.place <+: target.place) : DirTree ν where
  node := tree.movedNode source.place target.place
  places := tree.places ++ tree.places.map fun place =>
    target.place ++ place.drop source.place.length
  nextIno := tree.nextIno
  root := by
    rw [movedNode_other]
    · exact tree.root
    · simp [Entry.place]
    · simp [Entry.place]
  parents := by
    have targetParent : tree.movedNode source.place target.place target.parent =
        tree.node target.parent := by
      apply movedNode_other
      · intro inside
        have lengths := inside.length_le
        simp only [Entry.place, List.length_append, List.length_singleton]
          at lengths
        omega
      · intro inside
        exact notBelow (inside.trans (List.prefix_append _ _))
    intro place name found
    by_cases inTarget : target.place <+: place
    · obtain ⟨rest, rfl⟩ := inTarget
      rw [List.append_assoc, movedNode_below, ← List.append_assoc] at found
      rw [movedNode_below]
      exact tree.parents _ name found
    · by_cases isTarget : target.place = place ++ [name]
      · obtain ⟨same, _⟩ := List.append_inj' isTarget rfl
        rw [← same, targetParent]
        exact isDirAt_iff.mp target.directory
      · have notTarget : ¬ target.place <+: place ++ [name] := by
          intro inside
          rcases List.prefix_concat_iff.mp inside with same | inside
          · exact isTarget same
          · exact inTarget inside
        rw [movedNode, if_neg notTarget] at found
        split at found
        · exact absurd rfl found
        · rename_i notSource
          rw [movedNode_other tree inTarget]
          · exact tree.parents place name found
          · intro inside
            exact notSource (inside.trans (List.prefix_append _ _))
  listed := by
    intro place found
    rw [List.mem_append, List.mem_map]
    rw [movedNode] at found
    split at found
    · rename_i inside
      obtain ⟨rest, rfl⟩ := inside
      rw [List.drop_left] at found
      exact Or.inr ⟨_, tree.listed _ found, by rw [List.drop_left]⟩
    · split at found
      · exact absurd rfl found
      · exact Or.inl (tree.listed place found)
  bounded := by
    intro place found here
    rw [movedNode] at here
    split at here
    · exact tree.bounded _ found here
    · split at here
      · cases here
      · exact tree.bounded place found here

/-! ## The calls that change a tree -/

/-- The entry a path ends in; none when its last step is no name or its
directory is not there. -/
def entry (tree : DirTree ν) (path : DirPath ν) : Option (Entry tree) :=
  match path.steps.getLast? with
  | some (.down name) =>
      match tree.walk [] path.steps.dropLast with
      | .ok parent =>
          if directory : tree.isDirAt parent = true then
            some ⟨parent, name, directory⟩
          else none
      | .error _ => none
  | _ => none

/-- `creat`: an existing file is kept. -/
def creat (tree : DirTree ν) (path : DirPath ν) : Option (DirTree ν) :=
  if path.slash then none
  else (tree.entry path).bind fun entry =>
    if free : tree.node entry.place = none then
      some (tree.put entry false free)
    else if tree.isDirAt entry.place then none
    else some tree

def mkdir (tree : DirTree ν) (path : DirPath ν) : Option (DirTree ν) :=
  (tree.entry path).bind fun entry =>
    if free : tree.node entry.place = none then
      some (tree.put entry true free)
    else none

/-- `unlink` of a file and `rmdir` of an empty directory. -/
def removeKind (tree : DirTree ν) (isDir : Bool) (path : DirPath ν) :
    Option (DirTree ν) :=
  (tree.entry path).bind fun entry =>
    if leaf : tree.isLeaf entry.place = true then
      if (tree.node entry.place).map Node.isDir = some isDir then
        some (tree.remove entry (isLeaf_iff.mp leaf))
      else none
    else none

def unlink (tree : DirTree ν) (path : DirPath ν) : Option (DirTree ν) :=
  if path.slash then none else tree.removeKind false path

def rmdir (tree : DirTree ν) (path : DirPath ν) : Option (DirTree ν) :=
  tree.removeKind true path

/-- `rename`: a file replaces a file, a directory an empty directory, and two
paths to one place leave everything as it is. -/
def rename (tree : DirTree ν) (oldPath newPath : DirPath ν) : Option (DirTree ν) :=
  (tree.entry oldPath).bind fun source =>
    (tree.entry newPath).bind fun target =>
      match tree.node source.place with
      | none => none
      | some moved =>
          if !moved.isDir && (oldPath.slash || newPath.slash) then none
          else if source.place = target.place then some tree
          else if !((tree.node target.place).map Node.isDir).all (· == moved.isDir)
              || !tree.isLeaf target.place then none
          else if notBelow : ¬ source.place <+: target.place then
            some (tree.move source target notBelow)
          else none

/-! ## What each call does -/

omit [DecidableEq ν] in
theorem entry_place {tree : DirTree ν} {path : DirPath ν} {entry : Entry tree}
    (found : tree.entry path = some entry) :
    entry.place = normal [] path.steps ∧
      path.steps = path.steps.dropLast ++ [.down entry.name] ∧
      tree.walk [] path.steps.dropLast = .ok entry.parent := by
  rw [DirTree.entry] at found
  split at found
  · rename_i name last
    split at found
    · rename_i parent walked
      split at found
      · cases found
        have nonempty : path.steps ≠ [] := by
          intro empty
          rw [empty] at last
          cases last
        have ends : path.steps.dropLast ++ [Step.down name] = path.steps := by
          rw [List.getLast?_eq_getLast_of_ne_nil nonempty] at last
          rw [← Option.some.inj last]
          exact List.dropLast_append_getLast nonempty
        refine ⟨?_, ends.symm, walked⟩
        rw [← ends, normal_append, ← walk_eq_normal walked]
        rfl
      · cases found
    · cases found
  · cases found

omit [DecidableEq ν] in
/-- An entry with something at it is where its path leads. -/
theorem resolve_of_entry {tree : DirTree ν} {path : DirPath ν} {entry : Entry tree}
    (found : tree.entry path = some entry) (here : tree.node entry.place ≠ none)
    (slash : path.slash = true → tree.isDirAt entry.place = true) :
    tree.resolve path = .ok entry.place := by
  obtain ⟨_, ends, walked⟩ := entry_place found
  have last : tree.walk entry.parent [.down entry.name] = .ok entry.place := by
    rw [walk_cons]
    · rfl
    · exact entry.directory
    · intro name same
      cases same
      exact here
  have whole : tree.walk [] path.steps = .ok entry.place := by
    rw [ends, walk_append walked, last]
  rw [resolve, walk_append whole]
  cases ended : path.slash with
  | false => rfl
  | true =>
      simp only [if_true]
      rw [walk_cons _ (slash ended) (by simp)]
      rfl

/-- One inode more, at a place that was free. -/
structure Added (tree next : DirTree ν) (place : List ν) (isDir : Bool) : Prop where
  free : tree.node place = none
  node : ∀ other, next.node other =
    if other = place then some ⟨tree.nextIno, isDir⟩ else tree.node other
  nextIno : next.nextIno = tree.nextIno + 1

theorem creat_eq_some {tree next : DirTree ν} {path : DirPath ν}
    (created : tree.creat path = some next) :
    path.slash = false ∧ ∃ entry, tree.entry path = some entry ∧
      ((next = tree ∧ ∃ ino, tree.node entry.place = some ⟨ino, false⟩) ∨
        Added tree next entry.place false) := by
  rw [creat] at created
  split at created
  · cases created
  · rename_i noSlash
    obtain ⟨entry, found, created⟩ := Option.bind_eq_some_iff.mp created
    refine ⟨by simpa using noSlash, entry, found, ?_⟩
    split at created
    · rename_i free
      cases created
      exact Or.inr ⟨free, fun _ => rfl, rfl⟩
    · rename_i taken
      split at created
      · cases created
      · rename_i notDirectory
        cases created
        obtain ⟨⟨ino, isDir⟩, here⟩ := Option.ne_none_iff_exists'.mp taken
        refine Or.inl ⟨rfl, ino, ?_⟩
        cases isDir with
        | false => exact here
        | true => exact absurd (isDirAt_iff.mpr ⟨ino, here⟩) notDirectory

theorem mkdir_eq_some {tree next : DirTree ν} {path : DirPath ν}
    (made : tree.mkdir path = some next) :
    ∃ entry, tree.entry path = some entry ∧
      Added tree next entry.place true := by
  obtain ⟨entry, found, made⟩ := Option.bind_eq_some_iff.mp made
  refine ⟨entry, found, ?_⟩
  split at made
  · rename_i free
    cases made
    exact ⟨free, fun _ => rfl, rfl⟩
  · cases made

/-- The inode at one place is gone. -/
structure Removed (tree next : DirTree ν) (place : List ν) : Prop where
  node : ∀ other, next.node other =
    if other = place then none else tree.node other
  nextIno : next.nextIno = tree.nextIno

theorem removeKind_eq_some {tree next : DirTree ν} {isDir : Bool} {path : DirPath ν}
    (removed : tree.removeKind isDir path = some next) :
    Removed tree next (normal [] path.steps) := by
  obtain ⟨entry, found, removed⟩ := Option.bind_eq_some_iff.mp removed
  rw [← (entry_place found).1]
  split at removed
  · split at removed
    · cases removed
      exact ⟨fun _ => rfl, rfl⟩
    · cases removed
  · cases removed

/-- What goes is of the kind that was asked for. -/
theorem removeKind_kind {tree next : DirTree ν} {isDir : Bool} {path : DirPath ν}
    (removed : tree.removeKind isDir path = some next) :
    ∃ entry, tree.entry path = some entry ∧
      (tree.node entry.place).map Node.isDir = some isDir := by
  obtain ⟨entry, found, removed⟩ := Option.bind_eq_some_iff.mp removed
  refine ⟨entry, found, ?_⟩
  split at removed
  · split at removed
    · assumption
    · cases removed
  · cases removed

theorem unlink_eq_some {tree next : DirTree ν} {path : DirPath ν}
    (removed : tree.unlink path = some next) :
    Removed tree next (normal [] path.steps) := by
  rw [unlink] at removed
  split at removed
  · cases removed
  · exact removeKind_eq_some removed

/-- Everything at and below one place has gone to another. -/
structure MovedTo (tree next : DirTree ν) (source target : List ν) : Prop where
  taken : tree.node source ≠ none
  different : source ≠ target
  notBelow : ¬ source <+: target
  node : ∀ place, next.node place = tree.movedNode source target place
  nextIno : next.nextIno = tree.nextIno

theorem rename_eq_some {tree next : DirTree ν} {oldPath newPath : DirPath ν}
    (renamed : tree.rename oldPath newPath = some next) :
    ∃ source target, tree.entry oldPath = some source ∧
      tree.entry newPath = some target ∧ ∃ moved,
        tree.node source.place = some moved ∧
        (moved.isDir = false → newPath.slash = false) ∧
        ((source.place = target.place ∧ next = tree) ∨
          MovedTo tree next source.place target.place) := by
  obtain ⟨source, sourceFound, renamed⟩ := Option.bind_eq_some_iff.mp renamed
  obtain ⟨target, targetFound, renamed⟩ := Option.bind_eq_some_iff.mp renamed
  refine ⟨source, target, sourceFound, targetFound, ?_⟩
  split at renamed
  · cases renamed
  · rename_i moved here
    split at renamed
    · cases renamed
    · rename_i slashes
      refine ⟨moved, here, ?_, ?_⟩
      · intro isFile
        simp only [isFile, Bool.not_false, Bool.true_and, Bool.or_eq_true,
          not_or, Bool.not_eq_true] at slashes
        exact slashes.2
      · split at renamed
        · rename_i same
          cases renamed
          exact Or.inl ⟨same, rfl⟩
        · rename_i different
          split at renamed
          · cases renamed
          · split at renamed
            · rename_i notBelow
              cases renamed
              refine Or.inr ⟨?_, different, notBelow, fun _ => rfl, rfl⟩
              rw [here]
              exact Option.some_ne_none _
            · cases renamed

/-- Nothing is below the name that a rename replaces. -/
theorem rename_target_isLeaf {tree next : DirTree ν} {oldPath newPath : DirPath ν}
    (renamed : tree.rename oldPath newPath = some next)
    (different : normal [] oldPath.steps ≠ normal [] newPath.steps) :
    tree.isLeaf (normal [] newPath.steps) = true := by
  obtain ⟨source, sourceFound, renamed⟩ := Option.bind_eq_some_iff.mp renamed
  obtain ⟨target, targetFound, renamed⟩ := Option.bind_eq_some_iff.mp renamed
  rw [← (entry_place sourceFound).1, ← (entry_place targetFound).1] at different
  rw [← (entry_place targetFound).1]
  split at renamed
  · cases renamed
  · split at renamed
    · cases renamed
    · split at renamed
      · cases renamed
      · rename_i replaces
        simp only [Bool.or_eq_true, Bool.not_eq_true', not_or,
          Bool.not_eq_false] at replaces
        exact replaces.2

omit [DecidableEq ν] in
theorem node_below_isLeaf {tree : DirTree ν} {place rest : List ν}
    (leaf : ∀ name, tree.node (place ++ [name]) = none) (nonempty : rest ≠ []) :
    tree.node (place ++ rest) = none := by
  obtain ⟨name, more, rfl⟩ := List.exists_cons_of_ne_nil nonempty
  by_contra found
  have shift : place ++ name :: more = (place ++ [name]) ++ more := by simp
  rw [shift] at found
  by_cases last : more = []
  · rw [last, List.append_nil] at found
    exact found (leaf name)
  · exact node_ne_none_of_isDirAt (isDirAt_of_below last found) (leaf name)

/-! ## Calls that succeed -/

omit [DecidableEq ν] in
/-- Names below the root end in an entry of the last one's directory. -/
theorem entry_of_down {tree : DirTree ν} {path : DirPath ν} {parent : List ν}
    {name : ν} (steps : path.steps = (parent ++ [name]).map .down)
    (directory : tree.isDirAt parent = true) :
    tree.entry path = some ⟨parent, name, directory⟩ := by
  have walked := walk_down (node_ne_none_of_isDirAt directory)
  rw [List.map_append, List.map_singleton] at steps
  simp only [entry, steps, List.getLast?_concat, List.dropLast_concat, walked,
    directory, dite_true]

theorem creat_of_free {tree : DirTree ν} {path : DirPath ν} {entry : Entry tree}
    (noSlash : path.slash = false) (found : tree.entry path = some entry)
    (free : tree.node entry.place = none) :
    tree.creat path = some (tree.put entry false free) := by
  rw [creat, noSlash, found]
  exact dif_pos free

theorem mkdir_of_free {tree : DirTree ν} {path : DirPath ν} {entry : Entry tree}
    (found : tree.entry path = some entry)
    (free : tree.node entry.place = none) :
    tree.mkdir path = some (tree.put entry true free) := by
  rw [mkdir, found]
  exact dif_pos free

theorem isLeaf_of_free {tree : DirTree ν} {place : List ν}
    (free : tree.node place = none) : tree.isLeaf place = true := by
  rw [isLeaf_iff]
  intro name
  by_contra found
  obtain ⟨ino, here⟩ := tree.parents place name found
  rw [free] at here
  cases here

/-- A directory can be renamed to a free name that is not below it. -/
theorem rename_of_free {tree : DirTree ν} {oldPath newPath : DirPath ν}
    {source target : Entry tree} (sourceFound : tree.entry oldPath = some source)
    (targetFound : tree.entry newPath = some target)
    (directory : tree.isDirAt source.place = true)
    (free : tree.node target.place = none)
    (notBelow : ¬ source.place <+: target.place) :
    tree.rename oldPath newPath = some (tree.move source target notBelow) := by
  obtain ⟨ino, here⟩ := isDirAt_iff.mp directory
  have different : source.place ≠ target.place := by
    intro same
    rw [same, free] at here
    cases here
  simp [rename, sourceFound, targetFound, here, different, free,
    isLeaf_of_free free, notBelow]

/-- A tree of directories that are one in another, and nothing else. -/
theorem exists_chain (names : List ν) :
    ∃ tree : DirTree ν, tree.isDirAt names = true ∧
      ∀ place, tree.node place ≠ none → place <+: names := by
  induction names using List.reverseRecOn with
  | nil =>
      refine ⟨onlyRoot, rfl, ?_⟩
      intro place found
      cases place with
      | nil => exact List.prefix_rfl
      | cons name rest => exact absurd rfl found
  | append_singleton names name inductionHypothesis =>
      obtain ⟨tree, directory, within⟩ := inductionHypothesis
      have free : tree.node (names ++ [name]) = none := by
        by_contra found
        have lengths := (within _ found).length_le
        rw [List.length_append, List.length_singleton] at lengths
        omega
      let entry : Entry tree := ⟨names, name, directory⟩
      refine ⟨tree.put entry true free, ?_, ?_⟩
      · exact isDirAt_iff.mpr ⟨tree.nextIno, if_pos rfl⟩
      · intro place found
        by_cases new : place = names ++ [name]
        · rw [new]
        · have old : (tree.put entry true free).node place = tree.node place :=
            if_neg new
          rw [old] at found
          exact (within place found).trans (List.prefix_append names [name])

/-- Such a tree with one more directory beside it. -/
theorem exists_chain_beside {names : List ν} {name : ν}
    (aside : ¬ [name] <+: names) :
    ∃ tree : DirTree ν, tree.isDirAt names = true ∧ tree.isDirAt [name] = true ∧
      ∀ place, tree.node place ≠ none → place <+: names ∨ place = [name] := by
  obtain ⟨chain, directory, within⟩ := exists_chain names
  have free : chain.node [name] = none := by
    by_contra found
    exact aside (within _ found)
  let entry : Entry chain := ⟨[], name, chain.isDirAt_root⟩
  have old : ∀ place, place ≠ [name] →
      (chain.put entry true free).node place = chain.node place :=
    fun place different => if_neg different
  refine ⟨chain.put entry true free, ?_, ?_, ?_⟩
  · have different : names ≠ [name] := by
      intro same
      rw [same] at aside
      exact aside List.prefix_rfl
    rw [isDirAt, old _ different]
    exact directory
  · exact isDirAt_iff.mpr ⟨chain.nextIno, if_pos rfl⟩
  · intro place found
    by_cases new : place = [name]
    · exact Or.inr new
    · rw [old _ new] at found
      exact Or.inl (within _ found)

end DirTree

end Changing

end ChlorosSnfs.Library.FileTree
