import BundlePlan.Disk
import BundlePlan.Proofs.Acceptance
import Mathlib.Data.List.Basic

/-! Where paths lead in a tree without links. A walk that succeeds ends where the parts of its path
lead, whatever is in the tree; and it succeeds in the same way as long as directories stay what
they are. -/
namespace BundlePlan

/-- Where one part of a path leads from a directory when no file is looked at. -/
def FilePath.Part.move (here : Location) : Part → Location
  | .root => []
  | .current => here
  | .up => here.dropLast
  | .name text => here ++ [text]

/-- Where the parts of a path lead from a directory. -/
def FilePath.place (path : FilePath) (cwd : Location) : Location :=
  path.parts.foldl Part.move cwd

namespace FileTree

open FilePath (Part)

variable {tree later : FileTree} {cwd here next : Location} {path : FilePath}

/-- Where the piece of a path between two slashes leads. -/
def move (here : Location) (piece : List Char) : Location :=
  (Part.ofPiece? piece).elim here (Part.move here)

private theorem move_nil (here : Location) : move here [] = here := rfl

private theorem move_pieces (pieces : List (List Char)) (here : Location) :
    (pieces.filterMap Part.ofPiece?).foldl Part.move here = pieces.foldl move here := by
  induction pieces generalizing here with
  | nil => rfl
  | cons piece rest ih =>
    cases read : Part.ofPiece? piece with
    | none => rw [List.filterMap_cons_none read, ih, List.foldl_cons, move, read, Option.elim_none]
    | some part =>
      rw [List.filterMap_cons_some read, List.foldl_cons, ih, List.foldl_cons, move, read,
        Option.elim_some]

theorem head?_splitOn (cs : List Char) :
    (cs.splitOn '/').head? = some [] ↔ cs = [] ∨ cs.head? = some '/' := by
  cases cs with
  | nil => simp
  | cons c rest =>
    rw [List.splitOn, List.splitOnP_cons_eq_if_modifyHead]
    by_cases slash : c = '/'
    · simp [slash]
    · simp [slash, List.head?_modifyHead]

theorem place_eq {path : FilePath} (given : path.text.toList ≠ []) (cwd : Location) :
    path.place cwd = (path.text.toList.splitOn '/').foldl move
      (if path.text.toList.head? = some '/' then [] else cwd) := by
  have nonempty : path.text.isEmpty = false := by
    rw [← Bool.not_eq_true, String.isEmpty_iff]
    exact fun empty => given (String.toList_eq_nil_iff.2 empty)
  -- Only a path that begins with a slash has an empty first piece, which then means the root.
  have absolute := (head?_splitOn path.text.toList).trans (or_iff_right given)
  unfold FilePath.place FilePath.parts
  split
  · rename_i none
    exact absurd none (List.splitOn_ne_nil _ _)
  · rename_i rest split
    rw [split] at absolute
    rw [if_pos (absolute.1 rfl), nonempty, split]
    exact move_pieces rest []
  · rename_i rest split
    rw [split] at absolute
    rw [if_neg (fun slash => absurd (absolute.2 slash) (by simp)), split]
    exact move_pieces rest cwd
  · rename_i first rest named _ split
    rw [split] at absolute
    rw [if_neg (fun slash => named (Option.some.inj (absolute.2 slash))), split]
    exact move_pieces (first :: rest) cwd

def Target.location : Target → Location
  | .standing directory => directory
  | .named directory name _ => directory ++ [name]

theorem move_ofList {piece : List Char} (given : piece ≠ []) (here : Location) :
    move here piece = if String.ofList piece = "." then here
      else if String.ofList piece = ".." then here.dropLast else here ++ [String.ofList piece] := by
  have dot : String.ofList piece = "." ↔ piece = ['.'] := by
    rw [← String.toList_inj, String.toList_ofList]
    exact Iff.rfl
  have dots : String.ofList piece = ".." ↔ piece = ['.', '.'] := by
    rw [← String.toList_inj, String.toList_ofList]
    exact Iff.rfl
  simp only [dot, dots]
  unfold move Part.ofPiece?
  split
  · exact absurd rfl given
  · rfl
  · rfl
  · rename_i _ single double
    rw [if_neg single, if_neg double]
    rfl

theorem enter_eq_ok {name : String} : tree.enter here name = .ok next ↔
    name = "." ∧ next = here ∨ name = ".." ∧ next = here.dropLast ∨
      name ≠ "." ∧ name ≠ ".." ∧ name.utf8ByteSize ≤ longestName ∧
        tree.entry? (here ++ [name]) = some .directory ∧ next = here ++ [name] := by
  unfold enter
  by_cases dot : name = "."
  · simp [dot, eq_comm]
  · by_cases dots : name = ".."
    · simp [dots, eq_comm]
    · by_cases long : name.utf8ByteSize > longestName
      · simp [dot, dots, long, Nat.not_le.2 long]
      · rw [if_neg dot, if_neg dots, if_neg long]
        split
        · rename_i there
          simp [dot, dots, Nat.not_lt.1 long, there, eq_comm]
        · rename_i there
          simp [dot, dots, there]
        · rename_i absent
          simp [dot, dots, absent]

private theorem move_of_enter {piece : List Char} (given : piece ≠ [])
    (entered : tree.enter here (String.ofList piece) = .ok next) : next = move here piece := by
  rw [move_ofList given]
  rcases enter_eq_ok.1 entered with ⟨dot, rfl⟩ | ⟨dots, rfl⟩ | ⟨notDot, notDots, _, _, rfl⟩
  · rw [if_pos dot]
  · rw [dots, if_neg (by decide), if_pos rfl]
  · rw [if_neg notDot, if_neg notDots]

theorem walk_eq_ok {pieces : List (List Char)} (given : ∀ piece ∈ pieces, piece ≠ [])
    (walked : (pieces.map String.ofList).foldlM tree.enter here = .ok next) :
    next = pieces.foldl move here := by
  induction pieces generalizing here with
  | nil => exact (Except.ok.inj walked).symm
  | cons piece rest ih =>
    obtain ⟨first, later⟩ := List.forall_mem_cons.1 given
    rw [List.map_cons, List.foldlM_cons] at walked
    obtain ⟨middle, entered, onward⟩ := Configuration.bind_eq_ok.1 walked
    rw [ih later onward, move_of_enter first entered, List.foldl_cons]

def pieces (path : FilePath) : List (List Char) :=
  (path.text.toList.splitOn '/').filter (· ≠ [])

def names (path : FilePath) : List String := (pieces path).map String.ofList

def origin (path : FilePath) (cwd : Location) : Location :=
  if path.text.toList.head? = some '/' then [] else cwd

/-- What a path with this last name denotes when the walk up to that name ends at `directory`. -/
def ending (directory : Location) (slash : Bool) (last : Option String) : Target :=
  match last with
  | none => .standing directory
  | some "." => .standing directory
  | some ".." => .standing directory.dropLast
  | some name => .named directory name slash

theorem locate_eq (tree : FileTree) (cwd : Location) (path : FilePath) : tree.locate cwd path =
    if path.text.toList.contains '\x00' then .error .nulInPath
    else if path.text.toList = [] then .error .notFound
    else if path.text.utf8ByteSize > longestPath then .error .nameTooLong
    else ((names path).dropLast.foldlM tree.enter (origin path cwd)).map fun directory =>
      ending directory (path.text.toList.getLast? = some '/') (names path).getLast? := by
  by_cases nul : path.text.toList.contains '\x00' = true
  · simp only [locate, if_pos nul]
    rfl
  · by_cases empty : path.text.toList = []
    · simp only [locate, if_neg nul, if_pos empty]
      rfl
    · by_cases long : path.text.utf8ByteSize > longestPath
      · simp only [locate, if_neg nul, if_neg empty, if_pos long]
        rfl
      · simp only [locate, if_neg nul, if_neg empty, if_neg long]
        change ((names path).dropLast.foldlM tree.enter (origin path cwd) >>= _) = _
        cases (names path).dropLast.foldlM tree.enter (origin path cwd) with
        | error failure => rfl
        | ok directory =>
          simp only [Except.map, bind, Except.bind, names, pieces]
          generalize (List.map String.ofList _).getLast? = last
          rcases last with none | name
          · rfl
          · by_cases dot : name = "."
            · rw [dot]
              rfl
            · by_cases dots : name = ".."
              · rw [dots]
                rfl
              · simp only [ending]
                rfl

theorem locate_eq_ok {target : Target} : tree.locate cwd path = .ok target ↔
    path.text.toList.contains '\x00' = false ∧ path.text.toList ≠ [] ∧
      path.text.utf8ByteSize ≤ longestPath ∧ ∃ directory,
        (names path).dropLast.foldlM tree.enter (origin path cwd) = .ok directory ∧
        ending directory (path.text.toList.getLast? = some '/') (names path).getLast? = target := by
  rw [locate_eq]
  split
  · rename_i nul
    simp only [nul, reduceCtorEq, false_and]
  · rename_i clean
    split
    · rename_i empty
      simp only [empty, ne_eq, not_true_eq_false, reduceCtorEq, false_and, and_false]
    · rename_i given
      split
      · rename_i long
        simp only [Nat.not_le.2 long, reduceCtorEq, false_and, and_false]
      · rename_i short
        simp only [clean, given, Nat.not_lt.1 short, ne_eq, not_false_eq_true, true_and]
        cases (names path).dropLast.foldlM tree.enter (origin path cwd) with
        | error failure => simp only [Except.map, reduceCtorEq, false_and, exists_false]
        | ok directory => simp only [Except.map, Except.ok.injEq, exists_eq_left']

private theorem location_ending {piece : List Char} (given : piece ≠ []) (directory : Location)
    (slash : Bool) :
    (ending directory slash (some (String.ofList piece))).location = move directory piece := by
  rw [move_ofList given]
  unfold ending
  split
  · rename_i none
    cases none
  · rename_i dot
    rw [if_pos (Option.some.inj dot)]
    rfl
  · rename_i dots
    rw [Option.some.inj dots]
    rfl
  · rename_i name notDot notDots same
    obtain rfl := Option.some.inj same
    rw [if_neg notDot, if_neg notDots]
    rfl

theorem foldl_move_pieces (path : FilePath) (here : Location) :
    (pieces path).foldl move here = (path.text.toList.splitOn '/').foldl move here := by
  unfold pieces
  generalize path.text.toList.splitOn '/' = all
  induction all generalizing here with
  | nil => rfl
  | cons piece rest ih =>
    by_cases empty : piece = []
    · rw [empty, List.filter_cons_of_neg (by simp), ih, List.foldl_cons, move_nil]
    · rw [List.filter_cons_of_pos (by simpa using empty), List.foldl_cons, ih, List.foldl_cons]

theorem location_of_locate {target : Target} (found : tree.locate cwd path = .ok target) :
    target.location = path.place cwd := by
  obtain ⟨_, given, _, directory, walked, rfl⟩ := locate_eq_ok.1 found
  have nonempty : ∀ piece ∈ pieces path, piece ≠ [] := fun piece member =>
    of_decide_eq_true (List.mem_filter.1 member).2
  rw [place_eq given, ← foldl_move_pieces]
  change _ = (pieces path).foldl move (origin path cwd)
  rcases List.eq_nil_or_concat' (pieces path) with none | ⟨init, last, split⟩
  · rw [names, none] at walked ⊢
    exact (Except.ok.inj walked).symm
  · rw [names, split] at walked ⊢
    rw [split] at nonempty
    rw [List.map_append, List.map_singleton, List.dropLast_concat] at walked
    rw [List.map_append, List.map_singleton, List.getLast?_concat, List.foldl_concat,
      location_ending (nonempty last (by simp)),
      walk_eq_ok (fun piece member => nonempty piece (by simp [member])) walked]

/-- Directories stay directories. -/
def Grows (tree later : FileTree) : Prop :=
  ∀ location, tree.entry? location = some .directory → later.entry? location = some .directory

theorem Grows.enter (grows : tree.Grows later) {name : String}
    (entered : tree.enter here name = .ok next) : later.enter here name = .ok next := by
  rcases enter_eq_ok.1 entered with dot | dots | ⟨notDot, notDots, short, there, same⟩
  · exact enter_eq_ok.2 (.inl dot)
  · exact enter_eq_ok.2 (.inr (.inl dots))
  · exact enter_eq_ok.2 (.inr (.inr ⟨notDot, notDots, short, grows _ there, same⟩))

theorem Grows.locate (grows : tree.Grows later) {target : Target}
    (found : tree.locate cwd path = .ok target) : later.locate cwd path = .ok target := by
  obtain ⟨clean, given, short, directory, walked, ends⟩ := locate_eq_ok.1 found
  refine locate_eq_ok.2 ⟨clean, given, short, directory, ?_, ends⟩
  generalize (names path).dropLast = names at walked
  generalize origin path cwd = here at walked
  induction names generalizing here with
  | nil => exact walked
  | cons name rest ih =>
    rw [List.foldlM_cons] at walked ⊢
    obtain ⟨middle, entered, onward⟩ := Configuration.bind_eq_ok.1 walked
    exact Configuration.bind_eq_ok.2 ⟨middle, grows.enter entered, ih middle onward⟩

end FileTree
end BundlePlan
