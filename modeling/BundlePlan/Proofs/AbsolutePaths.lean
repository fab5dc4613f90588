import BundlePlan.Proofs.Pieces
import BundlePlan.Proofs.Storage
import BundlePlan.Proofs.Walks

/-! The paths of a loaded configuration. Each is absolute and without dots: what is written is seen
from the directory of the file, and that from the working directory, both on the texts alone. A
path that is written as an absolute one does not depend on where it is seen from. -/
namespace BundlePlan

/-- What stands between two slashes of a path and is neither nothing nor dots. -/
def IsName (name : String) : Prop :=
  name ≠ "" ∧ name ≠ "." ∧ name ≠ ".." ∧ '/' ∉ name.toList

instance (name : String) : Decidable (IsName name) := inferInstanceAs (Decidable (_ ∧ _))

theorem isName_iff {name : String} : IsName name ↔ name.toList ≠ [] ∧ name.toList ≠ ['.'] ∧
    name.toList ≠ ['.', '.'] ∧ '/' ∉ name.toList := by
  simp only [IsName, ← String.toList_inj, ne_eq]
  exact Iff.rfl

namespace FilePath

def ofLocation (location : Location) : FilePath := ⟨"/" ++ "/".intercalate location⟩

def IsAbsolute (path : FilePath) : Prop := path.text.toList.head? = some '/'

/-- Absolute, and without dots for names. -/
def IsNormal (path : FilePath) : Prop :=
  path.IsAbsolute ∧
    ∀ piece ∈ path.text.toList.splitOn '/', piece ≠ ['.'] ∧ piece ≠ ['.', '.']

/-- Nothing and a single dot lead nowhere, and double dots lead up but not above the root. -/
def normalStep (here : Location) (piece : List Char) : Location :=
  if piece = [] ∨ piece = ['.'] then here
  else if piece = ['.', '.'] then here.dropLast
  else here ++ [String.ofList piece]

/-- Where the path leads from a location by what stands between its slashes. -/
def normalFrom (here : Location) (path : FilePath) : Location :=
  (path.text.toList.splitOn '/').foldl normalStep
    (if path.text.toList.head? = some '/' then [] else here)

variable {path : FilePath} {here : Location} {part first : Part} {parts rest init : List Part}
  {piece : List Char} {name : String}

def leading (piece : List Char) : Part :=
  if piece = [] then .root
  else if piece = ['.'] then .current
  else if piece = ['.', '.'] then .up
  else .name (String.ofList piece)

theorem ofPiece?_eq (piece : List Char) : Part.ofPiece? piece =
    if piece = [] ∨ piece = ['.'] then none else some (leading piece) := by
  unfold Part.ofPiece? leading
  split <;> simp_all

private theorem place_eq_normalFrom (path : FilePath) (here : Location) :
    path.place here = path.normalFrom here := by
  have same : normalStep = FileTree.move := by
    funext here piece
    rw [normalStep, FileTree.move, ofPiece?_eq]
    split
    · rfl
    · rename_i given
      obtain ⟨blank, dot⟩ := not_or.1 given
      rw [leading, if_neg blank, if_neg dot]
      split <;> rfl
  rw [FileTree.place_eq_pieces, FileTree.foldl_move_pieces, normalFrom, same]
  rfl

def Part.IsFirst : Part → Prop
  | .name text => IsName text
  | _ => True

/-- A part that can stand anywhere in a path: only the first one is the root or a single dot. -/
def Part.IsInner : Part → Prop
  | .up => True
  | .name text => IsName text
  | _ => False

private theorem Part.IsInner.isFirst (inner : part.IsInner) : part.IsFirst := by
  cases part with
  | name text => exact inner
  | _ => trivial

def Written : List Part → Prop
  | [] => True
  | first :: rest => first.IsFirst ∧ ∀ part ∈ rest, part.IsInner

private theorem isInner_leading (given : ¬ (piece = [] ∨ piece = ['.'])) (clean : '/' ∉ piece) :
    (leading piece).IsInner := by
  obtain ⟨blank, dot⟩ := not_or.1 given
  rw [leading, if_neg blank, if_neg dot]
  split
  · trivial
  · rename_i dots
    refine isName_iff.2 ?_
    rw [String.toList_ofList]
    exact ⟨blank, dot, dots, clean⟩

private theorem isInner_of_pieces {pieces : List (List Char)}
    (clean : ∀ piece ∈ pieces, '/' ∉ piece) :
    ∀ part ∈ pieces.filterMap Part.ofPiece?, part.IsInner := by
  intro part member
  obtain ⟨piece, inside, read⟩ := List.mem_filterMap.1 member
  rw [ofPiece?_eq] at read
  split at read
  · cases read
  · rename_i given
    cases read
    exact isInner_leading given (clean piece inside)

private theorem isFirst_leading (clean : '/' ∉ piece) : (leading piece).IsFirst := by
  by_cases given : piece = [] ∨ piece = ['.']
  · rcases given with rfl | rfl <;> trivial
  · exact (isInner_leading given clean).isFirst

private theorem leading_spell (leads : part.IsFirst) : leading part.spell = part := by
  cases part with
  | name text =>
    obtain ⟨given, dot, dots, _⟩ := isName_iff.1 leads
    rw [Part.spell, leading, if_neg given, if_neg dot, if_neg dots, String.ofList_toList]
  | _ => rfl

private theorem ofPiece?_spell (inner : part.IsInner) : Part.ofPiece? part.spell = some part := by
  rw [ofPiece?_eq, if_neg, leading_spell inner.isFirst]
  cases part with
  | up => decide
  | name text =>
    obtain ⟨given, dot, _⟩ := isName_iff.1 inner
    exact not_or.2 ⟨given, dot⟩
  | root => cases inner
  | current => cases inner

private theorem slash_not_mem_spell (leads : part.IsFirst) : '/' ∉ part.spell := by
  cases part with
  | name text => exact leads.2.2.2
  | _ => decide

private theorem parts_of_empty (empty : path.text = "") : path.parts = [] := by
  unfold parts
  rw [empty]
  rfl

theorem parts_of_split {pieces : List (List Char)} (given : path.text ≠ "")
    (split : path.text.toList.splitOn '/' = piece :: pieces) :
    path.parts = leading piece :: pieces.filterMap Part.ofPiece? := by
  have some : path.text.isEmpty = false := by
    rw [← Bool.not_eq_true, String.isEmpty_iff]
    exact given
  unfold parts
  rw [split, some]
  by_cases root : piece = []
  · rw [root]
    rfl
  · by_cases dot : piece = ['.']
    · rw [dot]
      rfl
    · split
      · rename_i none
        cases none
      · rename_i same
        exact absurd (List.cons.inj same).1 root
      · rename_i same
        exact absurd (List.cons.inj same).1 dot
      · rename_i same
        obtain ⟨rfl, rfl⟩ := List.cons.inj same
        apply List.filterMap_cons_some
        rw [ofPiece?_eq, if_neg (not_or.2 ⟨root, dot⟩)]

private theorem written_parts (path : FilePath) : Written path.parts := by
  by_cases empty : path.text = ""
  · rw [parts_of_empty empty]
    trivial
  · obtain ⟨piece, pieces, split⟩ :=
      List.exists_cons_of_ne_nil (List.splitOn_ne_nil '/' path.text.toList)
    have clean : ∀ other ∈ piece :: pieces, '/' ∉ other := fun other member =>
      not_mem_of_mem_splitOn (split ▸ member)
    obtain ⟨here, later⟩ := List.forall_mem_cons.1 clean
    rw [parts_of_split empty split]
    exact ⟨isFirst_leading here, isInner_of_pieces later⟩

private theorem Written.dropLast (written : Written parts) : Written parts.dropLast := by
  match parts, written with
  | [], _ => trivial
  | [_], _ => trivial
  | first :: second :: rest, ⟨leads, inner⟩ =>
    exact ⟨leads, fun part member => inner part (List.mem_of_mem_dropLast member)⟩

private theorem filterMap_spell (inner : ∀ part ∈ rest, part.IsInner) :
    (rest.map Part.spell).filterMap Part.ofPiece? = rest := by
  induction rest with
  | nil => rfl
  | cons part rest ih =>
    obtain ⟨here, later⟩ := List.forall_mem_cons.1 inner
    rw [List.map_cons, List.filterMap_cons_some (ofPiece?_spell here), ih later]

private theorem Written.slash_not_mem (written : Written parts) :
    ∀ piece ∈ parts.map Part.spell, '/' ∉ piece := by
  cases parts with
  | nil => exact fun _ none => nomatch none
  | cons first rest =>
    obtain ⟨leads, inner⟩ := written
    exact List.forall_mem_cons.2 ⟨slash_not_mem_spell leads, List.forall_mem_map.2
      fun part member => slash_not_mem_spell (inner part member).isFirst⟩

/-- Spelling the parts of a path and reading them again gives the same parts. -/
theorem parts_ofParts (written : Written parts) : (ofParts parts).parts = parts := by
  cases parts with
  | nil => rfl
  | cons first rest =>
    by_cases root : first :: rest = [.root]
    · rw [root]
      rfl
    · -- Between the slashes stand the spelled parts, and they are read one by one.
      have text : (ofParts (first :: rest)).text.toList =
          ['/'].intercalate ((first :: rest).map Part.spell) := by
        rw [ofParts, if_neg root, String.toList_ofList]
      have split : (ofParts (first :: rest)).text.toList.splitOn '/' =
          first.spell :: rest.map Part.spell := by
        rw [text, List.splitOn_intercalate '/' written.slash_not_mem (by simp)]
        rfl
      have given : (ofParts (first :: rest)).text ≠ "" := by
        intro empty
        rw [empty] at split
        obtain ⟨blank, none⟩ := List.cons.inj split
        have alone : first = .root := by
          rw [← leading_spell written.1, ← blank]
          rfl
        exact root (by rw [alone, List.map_eq_nil_iff.1 none.symm])
      rw [parts_of_split given split, leading_spell written.1, filterMap_spell written.2]

def rooted (location : Location) : List Part := .root :: location.map .name

private theorem written_rooted (proper : ∀ name ∈ here, IsName name) : Written (rooted here) :=
  ⟨trivial, List.forall_mem_map.2 proper⟩

private theorem map_spell_rooted (location : Location) :
    (rooted location).map Part.spell = [] :: location.map String.toList := by
  simp [rooted, Part.spell, Function.comp_def]

private theorem rooted_concat (init : Location) (name : String) :
    rooted (init ++ [name]) = rooted init ++ [.name name] := by
  simp [rooted]

private theorem rooted_eq_root : rooted here = [.root] ↔ here = [] := by
  simp [rooted]

private theorem toList_ofLocation (location : Location) : (ofLocation location).text.toList =
    '/' :: ['/'].intercalate (location.map String.toList) := by
  rw [ofLocation, String.toList_append, String.toList_intercalate]
  rfl

private theorem ofParts_rooted (location : Location) :
    ofParts (rooted location) = ofLocation location := by
  by_cases top : location = []
  · rw [top]
    rfl
  · have others : location.map String.toList ≠ [] := mt List.map_eq_nil_iff.1 top
    apply text_inj.1
    apply String.toList_injective
    rw [toList_ofLocation, ofParts, if_neg (mt rooted_eq_root.1 top), map_spell_rooted,
      String.toList_ofList, List.intercalate_cons_of_ne_nil others]
    rfl

private theorem parentParts?_concat (init : List Part) (name : String) :
    parentParts? (init ++ [.name name]) = some init := by
  simp [parentParts?]

private theorem follow_rooted (inner : part.IsInner) (here : Location) :
    follow (rooted here) part = rooted (part.move here) := by
  cases part with
  | up =>
    rcases List.eq_nil_or_concat' here with rfl | ⟨init, last, rfl⟩
    · rfl
    · rw [follow, if_neg (mt rooted_eq_root.1 (by simp)), rooted_concat, List.dropLast_concat,
        Part.move, List.dropLast_concat]
  | name text => exact (rooted_concat here text).symm
  | root => cases inner
  | current => cases inner

private theorem foldl_follow (inner : ∀ part ∈ rest, part.IsInner) (here : Location) :
    rest.foldl follow (rooted here) = rooted (rest.foldl Part.move here) := by
  induction rest generalizing here with
  | nil => rfl
  | cons part rest ih =>
    obtain ⟨first, later⟩ := List.forall_mem_cons.1 inner
    rw [List.foldl_cons, List.foldl_cons, follow_rooted first, ih later]

private theorem start_rooted (here : Location) (first : Part) :
    start (rooted here) first = rooted (first.move here) := by
  cases first with
  | root => rfl
  | current => rfl
  | name text => exact (rooted_concat here text).symm
  | up =>
    rcases List.eq_nil_or_concat' here with rfl | ⟨init, last, rfl⟩
    · rfl
    · rw [start, rooted_concat, parentParts?_concat, Option.getD_some, Part.move,
        List.dropLast_concat]

/-- Seen from a location, a path leads to where its parts lead from there. -/
theorem absoluteFrom_ofLocation (proper : ∀ name ∈ here, IsName name) (path : FilePath) :
    (ofLocation here).absoluteFrom path = ofLocation (path.place here) := by
  have base : (ofLocation here).parts = rooted here := by
    rw [← ofParts_rooted, parts_ofParts (written_rooted proper)]
  have written := written_parts path
  unfold absoluteFrom place
  cases parts : path.parts with
  | nil => rfl
  | cons first rest =>
    rw [parts] at written
    dsimp only
    rw [base, start_rooted, foldl_follow written.2, ofParts_rooted, List.foldl_cons]

/-- An absolute path leads to the same location from everywhere. -/
theorem absoluteFrom_of_root (absolute : path.parts.head? = some .root) (base : FilePath)
    (here : Location) : base.absoluteFrom path = ofLocation (path.place here) := by
  have written := written_parts path
  unfold absoluteFrom place
  cases parts : path.parts with
  | nil =>
    rw [parts] at absolute
    cases absolute
  | cons first rest =>
    rw [parts] at written absolute
    obtain rfl : first = .root := Option.some.inj absolute
    dsimp only
    rw [List.foldl_cons, ← ofParts_rooted]
    exact congrArg ofParts (foldl_follow written.2 [])

private theorem leading_eq_root : leading piece = .root ↔ piece = [] := by
  unfold leading
  split
  · simp_all
  · split
    · simp_all
    · split <;> simp_all

theorem isAbsolute_iff : path.IsAbsolute ↔ path.parts.head? = some .root := by
  unfold IsAbsolute
  by_cases empty : path.text = ""
  · simp [parts_of_empty empty, empty]
  · obtain ⟨piece, pieces, split⟩ :=
      List.exists_cons_of_ne_nil (List.splitOn_ne_nil '/' path.text.toList)
    have first := FileTree.head?_splitOn path.text.toList
    rw [split, or_iff_right (mt String.toList_eq_nil_iff.1 empty)] at first
    rw [← first, parts_of_split empty split]
    simp [leading_eq_root]

private theorem isName_move (leads : part.IsFirst) (proper : ∀ name ∈ here, IsName name) :
    ∀ name ∈ part.move here, IsName name := by
  cases part with
  | root => exact fun _ none => nomatch none
  | current => exact proper
  | up => exact fun name member => proper name (List.mem_of_mem_dropLast member)
  | name text => exact List.forall_mem_append.2 ⟨proper, List.forall_mem_singleton.2 leads⟩

private theorem isName_foldl (inner : ∀ part ∈ rest, part.IsInner)
    (proper : ∀ name ∈ here, IsName name) : ∀ name ∈ rest.foldl Part.move here, IsName name := by
  induction rest generalizing here with
  | nil => exact proper
  | cons part rest ih =>
    obtain ⟨first, later⟩ := List.forall_mem_cons.1 inner
    exact ih later (isName_move first.isFirst proper)

private theorem Written.isName (written : Written parts) (proper : ∀ name ∈ here, IsName name) :
    ∀ name ∈ parts.foldl Part.move here, IsName name := by
  cases parts with
  | nil => exact proper
  | cons first rest =>
    rw [List.foldl_cons]
    exact isName_foldl written.2 (isName_move written.1 proper)

private theorem isNormal_ofLocation (proper : ∀ name ∈ here, IsName name) :
    (ofLocation here).IsNormal := by
  refine ⟨by rw [IsAbsolute, toList_ofLocation]; rfl, fun piece member => ?_⟩
  have written := written_rooted proper
  rcases List.eq_nil_or_concat' here with rfl | ⟨init, last, split⟩
  · have pieces : (ofLocation []).text.toList.splitOn '/' = [[], []] := by decide
    rw [pieces] at member
    simp_all
  · have others : here.map String.toList ≠ [] := by simp [split]
    have text : (ofLocation here).text.toList =
        ['/'].intercalate ((rooted here).map Part.spell) := by
      rw [toList_ofLocation, map_spell_rooted, List.intercalate_cons_of_ne_nil others]
      rfl
    rw [text, List.splitOn_intercalate '/' written.slash_not_mem (by simp [rooted]),
      map_spell_rooted] at member
    rcases List.mem_cons.1 member with rfl | named
    · decide
    · obtain ⟨name, inside, rfl⟩ := List.mem_map.1 named
      obtain ⟨_, dot, dots, _⟩ := isName_iff.1 (proper name inside)
      exact ⟨dot, dots⟩

end FilePath

namespace FileTree

variable {tree : FileTree} {cwd : Location} {path : FilePath}

/-- What an absolute path leads to does not depend on the working directory. -/
theorem reach_absolute (absolute : path.IsAbsolute) (other : Location) :
    tree.reach other path = tree.reach cwd path := by
  have slash : path.text.toList.head? = some '/' := absolute
  rw [reach_eq, reach_eq, locate_eq, locate_eq, origin, origin, if_pos slash, if_pos slash]

private theorem filterMap_pieces (path : FilePath) :
    (pieces path).filterMap FilePath.Part.ofPiece? =
    (path.text.toList.splitOn '/').filterMap FilePath.Part.ofPiece? := by
  unfold pieces
  generalize path.text.toList.splitOn '/' = all
  induction all with
  | nil => rfl
  | cons piece rest ih =>
    by_cases blank : piece = []
    · rw [blank, List.filter_cons_of_neg (by simp), ih]
      rfl
    · rw [List.filter_cons_of_pos (by simpa using blank), List.filterMap_cons, ih,
        List.filterMap_cons]

private theorem exists_parts (path : FilePath) :
    ∃ lead, path.parts = lead ++ (pieces path).filterMap FilePath.Part.ofPiece? := by
  by_cases empty : path.text = ""
  · refine ⟨[], ?_⟩
    rw [filterMap_pieces, FilePath.parts_of_empty empty, empty]
    rfl
  · obtain ⟨piece, rest, split⟩ :=
      List.exists_cons_of_ne_nil (List.splitOn_ne_nil '/' path.text.toList)
    rw [filterMap_pieces, FilePath.parts_of_split empty split, split]
    by_cases none : piece = [] ∨ piece = ['.']
    · refine ⟨[FilePath.leading piece], ?_⟩
      rw [List.filterMap_cons_none (by rw [FilePath.ofPiece?_eq, if_pos none])]
      rfl
    · refine ⟨[], ?_⟩
      rw [List.filterMap_cons_some (by rw [FilePath.ofPiece?_eq, if_neg none])]
      rfl

private theorem parts_of_named {directory : Location} {name : String} {slash : Bool}
    (found : tree.locate cwd path = .ok (.named directory name slash)) :
    ∃ init, path.parts = init ++ [.name name] := by
  obtain ⟨_, _, _, reached, _, ends⟩ := locate_eq_ok.1 found
  rcases List.eq_nil_or_concat' (pieces path) with none | ⟨before, last, split⟩
  · rw [names, none] at ends
    cases ends
  · have inside : last ∈ pieces path := by
      rw [split]
      simp
    have given : last ≠ [] := of_decide_eq_true (List.mem_filter.1 inside).2
    rw [names, split, List.map_append, List.map_singleton, List.getLast?_concat] at ends
    unfold ending at ends
    split at ends
    · cases ends
    · cases ends
    · cases ends
    · rename_i other dot dots same
      obtain rfl := Option.some.inj same
      cases ends
      have notDot : last ≠ ['.'] := by
        rintro rfl
        exact dot rfl
      have notDots : last ≠ ['.', '.'] := by
        rintro rfl
        exact dots rfl
      have read : FilePath.Part.ofPiece? last = some (.name (String.ofList last)) := by
        rw [FilePath.ofPiece?_eq, if_neg (not_or.2 ⟨given, notDot⟩), FilePath.leading,
          if_neg given, if_neg notDot, if_neg notDots]
      obtain ⟨lead, parts⟩ := exists_parts path
      rw [split, List.filterMap_append, List.filterMap_cons_some read, ← List.append_assoc] at parts
      exact ⟨_, parts⟩

end FileTree

namespace Configuration

open FilePath

variable {disk : Disk} {path : FilePath} {configuration : Configuration}

private theorem written_init {init : List Part} {last : Part}
    (split : path.parts = init ++ [last]) : Written init := by
  have dropped := (written_parts path).dropLast
  rwa [split, List.dropLast_concat] at dropped

private theorem directoryOf_eq {init : List Part} {name : String}
    (split : path.parts = init ++ [.name name]) (proper : ∀ part ∈ disk.cwd, IsName part) :
    directoryOf disk path = ofLocation (init.foldl Part.move disk.cwd) := by
  have base : disk.workingDirectory = ofLocation disk.cwd := ofParts_rooted disk.cwd
  unfold directoryOf
  rw [split, parentParts?_concat, base]
  cases init with
  | nil => exact absoluteFrom_ofLocation proper ⟨"."⟩
  | cons first rest =>
    dsimp only
    rw [absoluteFrom_ofLocation proper, place, parts_ofParts (written_init split)]

private theorem directoryOf_absolute {init : List Part} {name : String}
    (split : path.parts = init ++ [.name name]) (absolute : path.IsAbsolute) :
    directoryOf disk path = ofLocation (init.foldl Part.move []) := by
  have root := isAbsolute_iff.1 absolute
  unfold directoryOf
  rw [split, parentParts?_concat]
  cases init with
  | nil =>
    rw [split] at root
    cases root
  | cons first rest =>
    have parts := parts_ofParts (written_init split)
    have first : (ofParts (first :: rest)).parts.head? = some .root := by
      rw [parts, ← root, split]
      rfl
    dsimp only
    rw [absoluteFrom_of_root first _ [], place, parts]

private theorem ofText_absolute {base : FilePath} {folder : Location}
    (seen : base = ofLocation folder) (proper : ∀ part ∈ folder, IsName part) (other : Location)
    (text : String) : ofText { disk with cwd := other } base text = ofText disk base text := by
  unfold ofText
  cases Sections.ofText text with
  | error fault => rfl
  | ok sections =>
    dsimp only
    cases checked : ofSections base sections with
    | error fault => rfl
    | ok configuration =>
      obtain ⟨bundle, entryPoint, accepted⟩ := ofSections_eq_ok.1 checked
      have absolute : configuration.entryPoint.IsAbsolute := by
        rw [accepted.entryPoint, seen, absoluteFrom_ofLocation proper, IsAbsolute,
          toList_ofLocation]
        rfl
      have same : ({ disk with cwd := other } : Disk).pathExists configuration.entryPoint =
          disk.pathExists configuration.entryPoint := by
        simp only [Disk.pathExists, FileTree.pathExists]
        rw [FileTree.reach_absolute absolute]
      dsimp only
      rw [same]

private theorem load_absolute (absolute : path.IsAbsolute) (other : Location) :
    load { disk with cwd := other } path = load disk path := by
  have same : ({ disk with cwd := other } : Disk).readText path = disk.readText path := by
    simp only [Disk.readText, FileTree.readText]
    rw [FileTree.reach_absolute absolute]
  unfold load
  rw [same]
  cases read : disk.readText path with
  | error failure => rfl
  | ok text =>
    obtain ⟨directory, name, found, _⟩ := FileTree.readText_eq_ok.1 read
    obtain ⟨init, split⟩ := FileTree.parts_of_named found
    have proper : ∀ part ∈ init.foldl Part.move [], IsName part :=
      (written_init split).isName (List.forall_mem_nil _)
    have here : directoryOf disk path = ofLocation (init.foldl Part.move []) :=
      directoryOf_absolute split absolute
    have there : directoryOf { disk with cwd := other } path = directoryOf disk path :=
      (directoryOf_absolute split absolute).trans here.symm
    dsimp only
    rw [there, ofText_absolute here proper]

/-- The paths of the configuration say what is written in the section, seen from this directory. -/
structure SeenFrom (folder : Location) (bundle : BundleSection) (configuration : Configuration) :
    Prop where
  entryPoint : bundle.entryPoint.map (fun written => ofLocation (written.normalFrom folder)) =
    some configuration.entryPoint
  searchPaths : bundle.searchPaths.map (fun written => ofLocation (written.normalFrom folder)) =
    configuration.searchPaths
  manifestDirectory : bundle.manifestDirectory.map
    (fun written => ofLocation (written.normalFrom folder)) = configuration.manifestDirectory

def paths (configuration : Configuration) : List FilePath :=
  configuration.entryPoint :: configuration.searchPaths ++ configuration.manifestDirectory.toList

private theorem seenFrom_of_accepted {base entryPoint : FilePath} {folder : Location}
    {sections : Sections} {bundle : BundleSection} (seen : base = ofLocation folder)
    (proper : ∀ part ∈ folder, IsName part)
    (accepted : Accepted base sections bundle entryPoint configuration) :
    SeenFrom folder bundle configuration := by
  have same : base.absoluteFrom = fun written => ofLocation (written.normalFrom folder) := by
    funext written
    rw [seen, absoluteFrom_ofLocation proper, place_eq_normalFrom]
  constructor
  · rw [accepted.entered, Option.map_some, accepted.entryPoint, same]
  · rw [accepted.searchPaths, same]
  · rw [accepted.directory, same]

private theorem SeenFrom.isNormal {folder : Location} {bundle : BundleSection}
    (seen : SeenFrom folder bundle configuration) (proper : ∀ part ∈ folder, IsName part) :
    ∀ shown ∈ configuration.paths, shown.IsNormal := by
  have normal (written : FilePath) : (ofLocation (written.normalFrom folder)).IsNormal := by
    rw [← place_eq_normalFrom]
    exact isNormal_ofLocation ((written_parts written).isName proper)
  intro shown member
  rcases List.mem_append.1 member with entered | manifest
  · rcases List.mem_cons.1 entered with rfl | searched
    · obtain ⟨written, _, same⟩ := Option.map_eq_some_iff.1 seen.entryPoint
      rw [← same]
      exact normal written
    · rw [← seen.searchPaths] at searched
      obtain ⟨written, _, rfl⟩ := List.mem_map.1 searched
      exact normal written
  · rw [← seen.manifestDirectory, Option.mem_toList] at manifest
    obtain ⟨written, _, rfl⟩ := Option.map_eq_some_iff.1 manifest
    exact normal written

/-- The paths of a loaded configuration lead from the root and hold no dots: each is what its text
says from the directory of the file, which is where its path says from the working directory. An
absolute text says the same from everywhere, and a file with an absolute path the same in every
working directory. -/
theorem load_normalizes {disk : Disk} {path : FilePath} {configuration : Configuration}
    (proper : ∀ part ∈ disk.cwd, IsName part)
    (loaded : (load disk path).value = .ok configuration) :
    (∃ folder name text sections bundle, path.normalFrom disk.cwd = folder ++ [name] ∧
      disk.tree.entry? (folder ++ [name]) = some (.file text.toUTF8) ∧
      Sections.ofText text = .ok sections ∧ sections.bundle = some bundle ∧
      SeenFrom folder bundle configuration) ∧
    (∀ shown ∈ configuration.paths, shown.IsNormal) ∧
    (∀ written : FilePath, written.IsAbsolute → ∀ base : FilePath,
      base.absoluteFrom written = ofLocation (written.normalFrom [])) ∧
    (path.IsAbsolute → ∀ other, load { disk with cwd := other } path = load disk path) := by
  cases read : disk.readText path with
  | error failure =>
    rw [load, read] at loaded
    cases loaded
  | ok text =>
    have passed : (ofText disk (directoryOf disk path) text).value = .ok configuration := by
      rw [load, read] at loaded
      exact loaded
    obtain ⟨directory, name, found, _, there⟩ := FileTree.readText_eq_ok.1 read
    obtain ⟨init, split⟩ := FileTree.parts_of_named found
    obtain ⟨sections, decoded, checked⟩ := ofText_eq_ok.1 passed
    obtain ⟨bundle, entryPoint, accepted⟩ := ofSections_eq_ok.1 checked
    let folder := init.foldl Part.move disk.cwd
    have names : ∀ part ∈ folder, IsName part := (written_init split).isName proper
    have ends : path.place disk.cwd = folder ++ [name] := by
      rw [place, split, List.foldl_append]
      rfl
    have file : directory ++ [name] = folder ++ [name] :=
      (FileTree.location_of_locate found).trans ends
    have seen := seenFrom_of_accepted (directoryOf_eq split proper) names accepted
    refine ⟨⟨folder, name, text, sections, bundle, ?_, file ▸ there, decoded, accepted.present,
      seen⟩, seen.isNormal names, fun written absolute base => ?_, load_absolute⟩
    · rw [← place_eq_normalFrom, ends]
    · rw [absoluteFrom_of_root (isAbsolute_iff.1 absolute) base [], place_eq_normalFrom]

/-- A configuration in a directory below the working directory; its paths go up, also beyond the
root, or are absolute. -/
def nestedText : String :=
  "bundle = \x7bentry_point = \"../m\", search_paths = [\".\", \"/s/./t/..\"], " ++
  "manifest_dir = \"../../../d\"\x7d\n"

def nested : Disk :=
  ⟨(((∅ : FileTree).put ["w"] .directory).put ["w", "c"] .directory).put ["w", "c", "b.toml"]
    (.file nestedText.toUTF8), ["w"]⟩

theorem load_normalizes_nested : (∀ part ∈ nested.cwd, IsName part) ∧ ∃ configuration,
    (load nested ⟨"./c/../c/b.toml"⟩).value = .ok configuration ∧
      configuration.entryPoint = ⟨"/w/m"⟩ ∧ configuration.searchPaths = [⟨"/w/c"⟩, ⟨"/s"⟩] ∧
      configuration.manifestDirectory = some ⟨"/d"⟩ ∧
      ∀ shown ∈ configuration.paths, shown.IsNormal := by
  have proper : ∀ part ∈ nested.cwd, IsName part := by decide
  have read : (load nested ⟨"./c/../c/b.toml"⟩).value.toOption.map (fun configuration =>
      (configuration.entryPoint, configuration.searchPaths, configuration.manifestDirectory)) =
      some (⟨"/w/m"⟩, [⟨"/w/c"⟩, ⟨"/s"⟩], some ⟨"/d"⟩) := by decide +kernel
  cases outcome : (load nested ⟨"./c/../c/b.toml"⟩).value with
  | error fault =>
    rw [outcome] at read
    cases read
  | ok configuration =>
    rw [outcome] at read
    simp only [Except.toOption, Option.map_some, Option.some.injEq, Prod.mk.injEq] at read
    obtain ⟨entryPoint, searchPaths, manifests⟩ := read
    obtain ⟨_, normal, _⟩ := load_normalizes proper outcome
    exact ⟨proper, configuration, rfl, entryPoint, searchPaths, manifests, normal⟩

end Configuration
end BundlePlan
