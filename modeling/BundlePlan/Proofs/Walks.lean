import BundlePlan.Proofs.Places

/-! What a walk through the tree depends on and how it fails. It sees of the entries it passes only
whether they are directories, and of the last one all. It comes to nothing because a name is not
there, or because something bars the way: a file where a directory is needed, or a name or a path
that is too long for anything to be there. -/
namespace BundlePlan

def Entry.isDirectory : Entry → Bool
  | .directory => true
  | .file _ => false

namespace FileTree

open FilePath (Part)

variable {tree later : FileTree} {cwd here next : Location} {path : FilePath} {name : String}
  {failure : FileFailure}

theorem place_eq_pieces (path : FilePath) (cwd : Location) :
    path.place cwd = (pieces path).foldl move (origin path cwd) := by
  by_cases empty : path.text.toList = []
  · have none : path.text = "" := String.toList_eq_nil_iff.1 empty
    simp [FilePath.place, FilePath.parts, pieces, origin, none]
  · rw [place_eq empty, foldl_move_pieces]
    rfl

/-- The same places hold directories and the same hold files, whatever is in the files. -/
def SameShape (tree later : FileTree) : Prop :=
  ∀ location, (tree.entry? location).map Entry.isDirectory =
    (later.entry? location).map Entry.isDirectory

private theorem SameShape.enter (shape : tree.SameShape later) : tree.enter = later.enter := by
  funext here name
  have kinds := shape (here ++ [name])
  unfold FileTree.enter
  generalize tree.entry? (here ++ [name]) = mine at kinds ⊢
  generalize later.entry? (here ++ [name]) = yours at kinds ⊢
  rcases mine with _ | (_ | content) <;> rcases yours with _ | (_ | other) <;>
    first
    | rfl
    | cases kinds

theorem SameShape.locate (shape : tree.SameShape later) (cwd : Location) (path : FilePath) :
    tree.locate cwd path = later.locate cwd path := by
  rw [locate_eq, locate_eq, shape.enter]

theorem reach_congr (located : tree.locate cwd path = later.locate cwd path)
    (kept : tree.entry? (path.place cwd) = later.entry? (path.place cwd)) :
    tree.reach cwd path = later.reach cwd path := by
  unfold reach
  rw [← located]
  cases found : tree.locate cwd path with
  | error failure => rfl
  | ok target =>
    cases target with
    | standing directory => rfl
    | named directory name slash =>
      have place : directory ++ [name] = path.place cwd := location_of_locate found
      rw [← place] at kept
      simp only [bind, Except.bind, kept]

theorem readText_congr (reached : tree.reach cwd path = later.reach cwd path) :
    tree.readText cwd path = later.readText cwd path := by
  unfold readText
  rw [reached]

theorem enter_eq_error : tree.enter here name = .error failure ↔ name ≠ "." ∧ name ≠ ".." ∧
    (longestName < name.utf8ByteSize ∧ failure = .nameTooLong ∨
      name.utf8ByteSize ≤ longestName ∧
        ((∃ content, tree.entry? (here ++ [name]) = some (.file content)) ∧
            failure = .notDirectory ∨
          tree.entry? (here ++ [name]) = none ∧ failure = .notFound)) := by
  unfold enter
  by_cases dot : name = "."
  · simp [dot]
  · by_cases dots : name = ".."
    · simp [dots]
    · by_cases long : longestName < name.utf8ByteSize
      · simp [dot, dots, long, Nat.not_le.2 long, eq_comm]
      · have short : name.utf8ByteSize ≤ longestName := Nat.not_lt.1 long
        rw [if_neg dot, if_neg dots, if_neg long]
        rcases there : tree.entry? (here ++ [name]) with _ | (_ | content) <;>
          simp [dot, dots, long, short, eq_comm]

/-- Something other than absence ends the walk at this name: it is longer than any name can be, or
it leads to a file although a directory is needed here. -/
def Bars (tree : FileTree) (here : Location) (name : String) (needed : Prop) : Prop :=
  name ≠ "." ∧ name ≠ ".." ∧ (longestName < name.utf8ByteSize ∨
    needed ∧ ∃ content, tree.entry? (here ++ [name]) = some (.file content))

/-- Nothing can be found under this path, and not just because it is not there. -/
def Obstructed (tree : FileTree) (cwd : Location) (path : FilePath) : Prop :=
  '\x00' ∈ path.text.toList ∨ longestPath < path.text.utf8ByteSize ∨
    ∃ before name after here, names path = before ++ name :: after ∧
      before.foldlM tree.enter (origin path cwd) = .ok here ∧
      tree.Bars here name (after ≠ [] ∨ path.text.toList.getLast? = some '/')

private theorem bars_of_enter (failed : tree.enter here name = .error failure)
    (other : failure ≠ .notFound) {needed : Prop} (goesOn : needed) :
    tree.Bars here name needed := by
  obtain ⟨notDot, notDots, ⟨long, _⟩ | ⟨_, ⟨file, _⟩ | ⟨_, rfl⟩⟩⟩ := enter_eq_error.1 failed
  · exact ⟨notDot, notDots, .inl long⟩
  · exact ⟨notDot, notDots, .inr ⟨goesOn, file⟩⟩
  · exact absurd rfl other

private theorem Bars.enter {needed : Prop} (bars : tree.Bars here name needed) :
    ∃ failure, failure ≠ .notFound ∧ tree.enter here name = .error failure := by
  obtain ⟨notDot, notDots, barred⟩ := bars
  by_cases long : longestName < name.utf8ByteSize
  · exact ⟨.nameTooLong, by simp, enter_eq_error.2 ⟨notDot, notDots, .inl ⟨long, rfl⟩⟩⟩
  · obtain ⟨_, file⟩ := barred.resolve_left long
    exact ⟨.notDirectory, by simp,
      enter_eq_error.2 ⟨notDot, notDots, .inr ⟨Nat.not_lt.1 long, .inl ⟨file, rfl⟩⟩⟩⟩

/-- The end of the walk, once the directory of the last name is reached. -/
def arrive (tree : FileTree) : Target → Except FileFailure Entry
  | .standing _ => .ok .directory
  | .named directory name slash =>
    if name.utf8ByteSize > longestName then .error .nameTooLong
    else match tree.entry? (directory ++ [name]) with
      | none => .error .notFound
      | some .directory => .ok .directory
      | some (.file content) => if slash then .error .notDirectory else .ok (.file content)

theorem reach_eq (tree : FileTree) (cwd : Location) (path : FilePath) :
    tree.reach cwd path = tree.locate cwd path >>= tree.arrive := by
  unfold reach
  refine congrArg _ (funext fun target => ?_)
  cases target with
  | standing directory => rfl
  | named directory name slash =>
    simp only [arrive, bind, Except.bind]
    split
    · rfl
    · rcases tree.entry? (directory ++ [name]) with _ | (_ | content)
      · rfl
      · rfl
      · cases slash <;> rfl

theorem ending_named (notDot : name ≠ ".") (notDots : name ≠ "..") (slash : Bool) :
    ending here slash (some name) = .named here name slash := by
  unfold ending
  split <;> simp_all

theorem arrive_eq_error {slash : Bool} :
    (∃ failure, failure ≠ .notFound ∧
      tree.arrive (ending here slash (some name)) = .error failure) ↔
      tree.Bars here name (slash = true) := by
  by_cases dot : name = "."
  · simp [dot, ending, arrive, Bars]
  · by_cases dots : name = ".."
    · simp [dots, ending, arrive, Bars]
    · rw [ending_named dot dots]
      unfold arrive Bars
      by_cases long : longestName < name.utf8ByteSize
      · simp [dot, dots, long]
      · rcases there : tree.entry? (here ++ [name]) with _ | (_ | content)
        · simp [dot, dots, long, there]
        · simp [dot, dots, long, there]
        · cases slash <;> simp [dot, dots, long, there]

private theorem Bars.imp {needed other : Prop} (bars : tree.Bars here name needed)
    (weaker : needed → other) : tree.Bars here name other :=
  ⟨bars.1, bars.2.1, bars.2.2.imp_right fun both => ⟨weaker both.1, both.2⟩⟩

private theorem walk_barred (tree : FileTree) (here : Location) (names : List String)
    (slash : Bool) :
    (∃ failure, failure ≠ .notFound ∧ ((names.dropLast.foldlM tree.enter here).map fun directory =>
      ending directory slash names.getLast?) >>= tree.arrive = .error failure) ↔
    ∃ before name after reached, names = before ++ name :: after ∧
      before.foldlM tree.enter here = .ok reached ∧
      tree.Bars reached name (after ≠ [] ∨ slash = true) := by
  rcases List.eq_nil_or_concat' names with rfl | ⟨init, last, rfl⟩
  · simp [Except.map, ending, arrive]
  · rw [List.dropLast_concat, List.getLast?_concat]
    constructor
    · rintro ⟨failure, other, failed⟩
      cases walked : init.foldlM tree.enter here with
      | error fault =>
        rw [walked] at failed
        obtain rfl : fault = failure := Except.error.inj failed
        obtain ⟨before, name, after, reached, rfl, ok, stopped⟩ :=
          Configuration.foldlM_eq_error.1 walked
        refine ⟨before, name, after ++ [last], reached, by simp, ok, ?_⟩
        exact bars_of_enter stopped other (.inl (by simp))
      | ok reached =>
        rw [walked] at failed
        refine ⟨init, last, [], reached, rfl, walked, ?_⟩
        exact (arrive_eq_error.1 ⟨failure, other, failed⟩).imp .inr
    · rintro ⟨before, name, after, reached, split, walked, bars⟩
      rcases List.eq_nil_or_concat' after with rfl | ⟨others, final, rfl⟩
      · obtain ⟨rfl, same⟩ := List.append_inj' split rfl
        obtain rfl := List.singleton_inj.1 same
        rw [walked]
        exact arrive_eq_error.2 (bars.imp fun either => either.resolve_left (by simp))
      · rw [← List.cons_append, ← List.append_assoc] at split
        obtain ⟨rfl, _⟩ := List.append_inj' split rfl
        obtain ⟨failure, other, stopped⟩ := bars.enter
        rw [Configuration.foldlM_eq_error.2
          ⟨before, name, others, reached, rfl, walked, stopped⟩]
        exact ⟨failure, other, rfl⟩

/-- Exactly where the way is barred a path leads to nothing for another reason than absence. -/
theorem reach_obstructed : (∃ failure, failure ≠ .notFound ∧ tree.reach cwd path = .error failure) ↔
    tree.Obstructed cwd path := by
  rw [reach_eq, locate_eq]
  unfold Obstructed
  by_cases nul : '\x00' ∈ path.text.toList
  · simp [nul]
  · by_cases empty : path.text.toList = []
    · have nameless : names path = [] := by simp [names, pieces, empty]
      have small : ¬ longestPath < path.text.utf8ByteSize := by
        rw [String.toList_eq_nil_iff.1 empty]
        decide
      simp [empty, nameless, small]
    · by_cases long : longestPath < path.text.utf8ByteSize
      · simp [nul, empty, long]
      · have walks := walk_barred tree (origin path cwd) (names path)
          (decide (path.text.toList.getLast? = some '/'))
        simp only [decide_eq_true_eq] at walks
        simp only [List.contains_iff_mem, nul, empty, long, if_false, false_or]
        exact walks

/-! Files directly inside a directory. -/

/-- A name that a file can have inside a directory, if it is not too long. -/
structure IsFileName (name : String) : Prop where
  named : name.toList ≠ []
  plain : '/' ∉ name.toList
  clean : '\x00' ∉ name.toList
  notDot : name ≠ "."
  notDots : name ≠ ".."

variable {dir : FilePath}

private theorem toList_beneath (given : dir.text ≠ "") (name : String) :
    ∃ front, (dir.beneath name).text.toList = front ++ '/' :: name.toList ∧
      (dir.text.toList = front ∨ dir.text.toList = front ++ ['/']) := by
  unfold FilePath.beneath
  rw [if_neg (by simpa using given)]
  split
  · rename_i slash
    obtain ⟨front, ends⟩ := List.getLast?_eq_some_iff.1 slash
    exact ⟨front, by simp [ends], .inr ends⟩
  · exact ⟨dir.text.toList, by simp, .inl rfl⟩

private theorem pieces_beneath (dir : FilePath) (fileName : IsFileName name) :
    pieces (dir.beneath name) = pieces dir ++ [name.toList] := by
  have single : name.toList.splitOn '/' = [name.toList] :=
    List.splitOn_eq_singleton fileName.plain
  by_cases empty : dir.text = ""
  · simp [pieces, FilePath.beneath, empty, single, fileName.named]
  · obtain ⟨front, text, same | slash⟩ := toList_beneath empty name
    · simp [pieces, text, same, List.splitOn_append_cons_self, single, fileName.named]
    · simp [pieces, text, slash, List.splitOn_append_cons_self, single, fileName.named]

private theorem names_beneath (dir : FilePath) (fileName : IsFileName name) :
    names (dir.beneath name) = names dir ++ [name] := by
  rw [names, pieces_beneath dir fileName, List.map_append, List.map_singleton,
    String.ofList_toList]
  rfl

private theorem origin_beneath (dir : FilePath) (fileName : IsFileName name) (cwd : Location) :
    origin (dir.beneath name) cwd = origin dir cwd := by
  unfold origin
  by_cases empty : dir.text = ""
  · have relative : name.toList.head? ≠ some '/' := fun slash =>
      fileName.plain (List.mem_of_mem_head? slash)
    simp [FilePath.beneath, empty, relative]
  · obtain ⟨front, text, same | slash⟩ := toList_beneath empty name
    · obtain ⟨c, rest, begins⟩ := List.exists_cons_of_ne_nil fun none =>
        empty (String.toList_eq_nil_iff.1 none)
      rw [text, ← same, begins]
      rfl
    · simp [text, slash]

/-- A file inside a directory is found one step below it, however the directory is spelled. -/
theorem place_beneath (dir : FilePath) (fileName : IsFileName name) (cwd : Location) :
    (dir.beneath name).place cwd = dir.place cwd ++ [name] := by
  rw [place_eq_pieces, place_eq_pieces, pieces_beneath dir fileName, origin_beneath dir fileName,
    List.foldl_append, List.foldl_cons, List.foldl_nil, move_ofList fileName.named,
    String.ofList_toList, if_neg fileName.notDot, if_neg fileName.notDots]

private theorem reach_of_walk {before : List String} (clean : '\x00' ∉ path.text.toList)
    (fits : path.text.utf8ByteSize ≤ longestPath) (split : names path = before ++ [name])
    (walked : before.foldlM tree.enter (origin path cwd) = .ok here) :
    tree.reach cwd path =
      tree.arrive (ending here (path.text.toList.getLast? = some '/') (some name)) := by
  have given : path.text.toList ≠ [] := by
    intro empty
    simp [names, pieces, empty] at split
  have located := locate_eq_ok.2 ⟨by simpa using clean, given, fits, here,
    by rw [split, List.dropLast_concat, walked], rfl⟩
  rw [reach_eq, located, split, List.getLast?_concat]
  rfl

private theorem getLast?_beneath (dir : FilePath) (fileName : IsFileName name) :
    (dir.beneath name).text.toList.getLast? = name.toList.getLast? := by
  by_cases empty : dir.text = ""
  · simp [FilePath.beneath, empty]
  · obtain ⟨front, text, _⟩ := toList_beneath empty name
    rw [text, List.getLast?_append_cons, List.getLast?_cons_of_ne_nil fileName.named]

private theorem toList_subset_beneath (dir : FilePath) (name : String) {c : Char}
    (member : c ∈ (dir.beneath name).text.toList) :
    c ∈ dir.text.toList ∨ c = '/' ∨ c ∈ name.toList := by
  by_cases empty : dir.text = ""
  · rw [FilePath.beneath, if_pos (by simpa using empty)] at member
    exact .inr (.inr member)
  · obtain ⟨front, text, spelled⟩ := toList_beneath empty name
    have inFront : c ∈ front → c ∈ dir.text.toList := by
      rcases spelled with same | slash <;> simp_all
    rw [text, List.mem_append, List.mem_cons] at member
    exact member.imp_left inFront

/-- Where the directory is there, or nothing in its place, the way to a file directly inside it is
barred by the length of the name or of the path only. -/
theorem not_obstructed_beneath (reached : tree.reach cwd dir = .ok .directory ∨
      tree.reach cwd dir = .error .notFound) (fileName : IsFileName name)
    (short : name.utf8ByteSize ≤ longestName)
    (fits : (dir.beneath name).text.utf8ByteSize ≤ longestPath) :
    ¬ tree.Obstructed cwd (dir.beneath name) := by
  have free : ¬ tree.Obstructed cwd dir := by
    rw [← reach_obstructed]
    rintro ⟨failure, other, failed⟩
    rcases reached with there | absent
    · cases there.symm.trans failed
    · cases absent.symm.trans failed
      exact other rfl
  rintro (nul | long | ⟨before, final, after, here, split, walked, bars⟩)
  · rcases toList_subset_beneath dir name nul with inDir | slash | inName
    · exact free (.inl inDir)
    · cases slash
    · exact fileName.clean inName
  · exact absurd fits (Nat.not_le.2 long)
  · rw [names_beneath dir fileName] at split
    rw [origin_beneath dir fileName] at walked
    rcases List.eq_nil_or_concat' after with rfl | ⟨others, last, rfl⟩
    · obtain ⟨rfl, same⟩ := List.append_inj' split rfl
      obtain rfl := List.singleton_inj.1 same
      rw [getLast?_beneath dir fileName] at bars
      -- The last name is short, and nothing needs it to be a directory.
      rcases bars.2.2 with long | ⟨none | slash, _⟩
      · exact absurd short (Nat.not_le.2 long)
      · exact none rfl
      · exact fileName.plain (List.mem_of_getLast? slash)
    · rw [← List.cons_append, ← List.append_assoc] at split
      obtain ⟨split, _⟩ := List.append_inj' split rfl
      by_cases goesOn : others ≠ [] ∨ dir.text.toList.getLast? = some '/'
      · refine free (.inr (.inr ⟨before, final, others, here, split, walked, ?_⟩))
        exact bars.imp fun _ => goesOn
      · -- The way is barred at the end of the directory's own path, which then leads to a file.
        obtain ⟨ends, noSlash⟩ := not_or.1 goesOn
        rw [not_ne_iff.1 ends] at split
        by_cases long : longestName < final.utf8ByteSize
        · refine free (.inr (.inr ⟨before, final, [], here, split, walked, ?_⟩))
          exact ⟨bars.1, bars.2.1, .inl long⟩
        · obtain ⟨_, content, there⟩ := bars.2.2.resolve_left long
          have found := reach_of_walk (fun nul => free (.inl nul))
            (Nat.not_lt.1 fun long => free (.inr (.inl long))) split walked
          rw [ending_named bars.1 bars.2.1, decide_eq_false noSlash, arrive, if_neg long, there]
            at found
          rcases reached with present | absent
          · cases found.symm.trans present
          · cases found.symm.trans absent

private theorem arrive_eq_directory {slash : Bool} :
    tree.arrive (ending here slash (some name)) = .ok .directory ↔
      ∃ next, tree.enter here name = .ok next := by
  unfold enter
  by_cases dot : name = "."
  · simp [dot, ending, arrive]
  · by_cases dots : name = ".."
    · simp [dots, ending, arrive]
    · rw [ending_named dot dots, if_neg dot, if_neg dots, arrive]
      by_cases long : name.utf8ByteSize > longestName
      · simp [long]
      · rw [if_neg long, if_neg long]
        rcases tree.entry? (here ++ [name]) with _ | (_ | content)
        · simp
        · simp
        · cases slash <;> simp

private theorem arrive_eq_file {slash : Bool} {content : ByteArray}
    (arrived : tree.arrive (ending here slash (some name)) = .ok (.file content)) :
    name ≠ "." ∧ name ≠ ".." ∧ tree.entry? (here ++ [name]) = some (.file content) := by
  have notDot : name ≠ "." := by
    rintro rfl
    cases arrived
  have notDots : name ≠ ".." := by
    rintro rfl
    cases arrived
  refine ⟨notDot, notDots, ?_⟩
  rw [ending_named notDot notDots, arrive] at arrived
  split at arrived
  · cases arrived
  · split at arrived
    · cases arrived
    · cases arrived
    · rename_i there
      split at arrived
      · cases arrived
      · rw [there, Except.ok.inj arrived]

theorem walk_of_directory (found : tree.reach cwd path = .ok .directory) :
    (names path).foldlM tree.enter (origin path cwd) = .ok (path.place cwd) := by
  rw [reach_eq] at found
  obtain ⟨target, located, arrived⟩ := Configuration.bind_eq_ok.1 found
  obtain ⟨_, _, _, directory, walked, rfl⟩ := locate_eq_ok.1 located
  obtain ⟨here, entered⟩ : ∃ here, (names path).foldlM tree.enter (origin path cwd) = .ok here := by
    rcases List.eq_nil_or_concat' (names path) with none | ⟨init, last, split⟩
    · rw [none] at walked ⊢
      exact ⟨directory, walked⟩
    · rw [split, List.dropLast_concat] at walked
      rw [split, List.getLast?_concat] at arrived
      obtain ⟨next, entered⟩ := arrive_eq_directory.1 arrived
      refine ⟨next, ?_⟩
      rw [split, List.foldlM_append]
      refine Configuration.bind_eq_ok.2 ⟨directory, walked, ?_⟩
      exact Configuration.bind_eq_ok.2 ⟨next, entered, rfl⟩
  rw [entered, place_eq_pieces]
  refine congrArg _ (walk_eq_ok (fun piece member => ?_) entered)
  exact of_decide_eq_true (List.mem_filter.1 member).2

theorem obstructed_of_file {content : ByteArray} (found : tree.reach cwd dir = .ok (.file content))
    (fileName : IsFileName name) : tree.Obstructed cwd (dir.beneath name) := by
  rw [reach_eq] at found
  obtain ⟨target, located, arrived⟩ := Configuration.bind_eq_ok.1 found
  obtain ⟨_, _, _, directory, walked, rfl⟩ := locate_eq_ok.1 located
  rcases List.eq_nil_or_concat' (names dir) with none | ⟨init, last, split⟩
  · rw [none] at arrived
    cases arrived
  · rw [split, List.dropLast_concat] at walked
    rw [split, List.getLast?_concat] at arrived
    obtain ⟨notDot, notDots, there⟩ := arrive_eq_file arrived
    refine .inr (.inr ⟨init, last, [name], directory, ?_, ?_, ?_⟩)
    · rw [names_beneath dir fileName, split, List.append_assoc, List.singleton_append]
    · rw [origin_beneath dir fileName, walked]
    · exact ⟨notDot, notDots, .inr ⟨.inl (List.cons_ne_nil _ _), content, there⟩⟩

theorem obstructed_of_long (found : tree.reach cwd dir = .ok .directory)
    (fileName : IsFileName name) (long : longestName < name.utf8ByteSize) :
    tree.Obstructed cwd (dir.beneath name) := by
  refine .inr (.inr ⟨names dir, name, [], dir.place cwd, names_beneath dir fileName, ?_, ?_⟩)
  · rw [origin_beneath dir fileName, walk_of_directory found]
  · exact ⟨fileName.notDot, fileName.notDots, .inl long⟩

/-- In a directory the entry of that name decides, and nothing else in the tree. -/
theorem reach_beneath (found : tree.reach cwd dir = .ok .directory)
    (fileName : IsFileName name) : tree.reach cwd (dir.beneath name) =
      if longestPath < (dir.beneath name).text.utf8ByteSize then .error .nameTooLong
      else tree.arrive (.named (dir.place cwd) name false) := by
  have cleanToo : '\x00' ∉ (dir.beneath name).text.toList := by
    intro nul
    rcases toList_subset_beneath dir name nul with inDir | slash | inName
    · obtain ⟨_, _, failed⟩ := reach_obstructed.2 (.inl inDir : tree.Obstructed cwd dir)
      cases found.symm.trans failed
    · cases slash
    · exact fileName.clean inName
  split
  · rename_i long
    have given : (dir.beneath name).text.toList ≠ [] := by
      intro empty
      rw [String.toList_eq_nil_iff.1 empty] at long
      exact absurd long (by decide)
    rw [reach_eq, locate_eq, if_neg (by simpa using cleanToo), if_neg given, if_pos long]
    rfl
  · rename_i fits
    have noSlash : name.toList.getLast? ≠ some '/' := fun slash =>
      fileName.plain (List.mem_of_getLast? slash)
    have walked := walk_of_directory found
    rw [← origin_beneath dir fileName] at walked
    rw [reach_of_walk cleanToo (Nat.not_lt.1 fits) (names_beneath dir fileName) walked,
      getLast?_beneath dir fileName, decide_eq_false noSlash, ending_named fileName.notDot
        fileName.notDots]

theorem Grows.reach_directory (grows : tree.Grows later)
    (found : tree.reach cwd path = .ok .directory) : later.reach cwd path = .ok .directory := by
  rw [reach_eq] at found ⊢
  obtain ⟨target, located, arrived⟩ := Configuration.bind_eq_ok.1 found
  refine Configuration.bind_eq_ok.2 ⟨target, grows.locate located, ?_⟩
  obtain ⟨_, _, _, directory, _, rfl⟩ := locate_eq_ok.1 located
  cases last : (names path).getLast? with
  | none => rfl
  | some name =>
    rw [last] at arrived
    obtain ⟨next, entered⟩ := arrive_eq_directory.1 arrived
    exact arrive_eq_directory.2 ⟨next, grows.enter entered⟩

end FileTree
end BundlePlan
