import BundlePlan.Proofs.Beginnings
import BundlePlan.Proofs.Deliveries

/-! Writing a text to a file whose directories are made first. Whatever was there before stays, but
for the content of that file, and nothing is new but directories that the path passes through; a
failure leaves no file behind that was not there and spares all that were. It succeeds unless the
path is no name for a file or something in the tree is in its way. -/
namespace BundlePlan

namespace FileTree

variable {tree middle later : FileTree} {cwd here next location : Location} {path front : FilePath}
  {name : String} {titles : List String} {directories : List FilePath}

def stride (here : Location) (name : String) : Location :=
  if name = "." then here else if name = ".." then here.dropLast else here ++ [name]

/-- The directories that a walk along these names enters by their own names. -/
def passes (here : Location) : List String → List Location
  | [] => []
  | name :: rest =>
    (if name = "." ∨ name = ".." then [] else [here ++ [name]]) ++ passes (stride here name) rest

private theorem passes_append (here : Location) (first second : List String) :
    passes here (first ++ second) = passes here first ++ passes (first.foldl stride here) second := by
  induction first generalizing here with
  | nil => rfl
  | cons name rest ih =>
    rw [List.cons_append, passes, ih, ← List.append_assoc]
    rfl

private theorem enter_iff_passes :
    tree.enter here name = .ok next ↔ name.utf8ByteSize ≤ longestName ∧
    (∀ location ∈ passes here [name], tree.entry? location = some .directory) ∧
      stride here name = next := by
  have dotsShort : ".".utf8ByteSize ≤ longestName ∧ "..".utf8ByteSize ≤ longestName := by decide
  rw [enter_eq_ok]
  by_cases dot : name = "."
  · simp [dot, passes, stride, dotsShort, eq_comm]
  · by_cases dots : name = ".."
    · simp [dots, passes, stride, dotsShort, eq_comm]
    · simp [dot, dots, passes, stride, eq_comm]

/-- A walk succeeds if its names are short enough and it passes through directories only. -/
theorem walk_iff_passes : titles.foldlM tree.enter here = .ok next ↔
    (∀ name ∈ titles, name.utf8ByteSize ≤ longestName) ∧
      (∀ location ∈ passes here titles, tree.entry? location = some .directory) ∧
        titles.foldl stride here = next := by
  induction titles generalizing here with
  | nil => simp [passes]
  | cons name rest ih =>
    rw [List.foldlM_cons, Configuration.bind_eq_ok, ← List.singleton_append, passes_append]
    simp only [enter_iff_passes, ih, List.forall_mem_append, List.forall_mem_singleton,
      List.foldl_append, List.foldl_cons, List.foldl_nil]
    constructor
    · rintro ⟨_, ⟨short, there, rfl⟩, shorts, theres, ends⟩
      exact ⟨⟨short, shorts⟩, ⟨there, theres⟩, ends⟩
    · rintro ⟨⟨short, shorts⟩, ⟨there, theres⟩, ends⟩
      exact ⟨_, ⟨short, there, rfl⟩, shorts, theres, ends⟩

def Clear (tree : FileTree) (places : List Location) : Prop :=
  ∀ location ∈ places, ∀ content, tree.entry? location ≠ some (.file content)

private theorem Clear.before {first second : List String}
    (clear : tree.Clear (passes here (first ++ second))) : tree.Clear (passes here first) := by
  intro location member
  refine clear location ?_
  rw [passes_append]
  exact List.mem_append_left _ member

private theorem walk_of_clear (short : ∀ name ∈ titles, name.utf8ByteSize ≤ longestName)
    (clear : tree.Clear (passes here titles)) :
    (∃ next, titles.foldlM tree.enter here = .ok next) ∨
      titles.foldlM tree.enter here = .error .notFound := by
  cases walked : titles.foldlM tree.enter here with
  | ok next => exact .inl ⟨next, rfl⟩
  | error failure =>
    obtain ⟨before, name, after, reached, rfl, walked, stopped⟩ :=
      Configuration.foldlM_eq_error.1 walked
    refine .inr (congrArg _ ?_)
    obtain ⟨notDot, notDots, ⟨long, _⟩ | ⟨_, ⟨⟨content, there⟩, _⟩ | ⟨_, absent⟩⟩⟩ :=
      enter_eq_error.1 stopped
    · exact absurd (short name (by simp)) (Nat.not_le.2 long)
    · obtain ⟨_, _, rfl⟩ := walk_iff_passes.1 walked
      refine absurd there (clear _ ?_ content)
      simp [passes_append, passes, notDot, notDots]
    · exact absent

/-- There is at a location what was there before, or a directory is new, at such a place. -/
def SparedAt (made : Location → Prop) (tree later : FileTree) (location : Location) : Prop :=
  later.entry? location = tree.entry? location ∨
    made location ∧ tree.entry? location = none ∧ later.entry? location = some .directory

/-- A later tree in which all that was there still is and only directories are new. -/
def Spares (made : Location → Prop) (tree later : FileTree) : Prop :=
  ∀ location, SparedAt made tree later location

namespace Spares

variable {made more : Location → Prop}

private theorem refl (made : Location → Prop) (tree : FileTree) : Spares made tree tree :=
  fun _ => .inl rfl

private theorem mono (spares : Spares made tree later)
    (wider : ∀ location, made location → more location) : Spares more tree later :=
  fun location => (spares location).imp_right fun new => ⟨wider location new.1, new.2⟩

private theorem trans (first : Spares made tree middle) (second : Spares made middle later) :
    Spares made tree later := by
  intro location
  rcases second location with same | ⟨here, absent, there⟩
  · rcases first location with sameToo | ⟨here, absent, there⟩
    · exact .inl (same.trans sameToo)
    · exact .inr ⟨here, absent, same.trans there⟩
  · rcases first location with sameToo | ⟨_, _, thereToo⟩
    · exact .inr ⟨here, sameToo.symm.trans absent, there⟩
    · rw [absent] at thereToo
      cases thereToo

private theorem clear (spares : Spares made tree later) {places : List Location}
    (clear : tree.Clear places) : later.Clear places := by
  intro location member content
  rcases spares location with same | ⟨_, _, there⟩
  · rw [same]
    exact clear location member content
  · simp [there]

end Spares

theorem createDirectory_eq_ok : tree.createDirectory cwd path = .ok later ↔
    ∃ directory name slash, tree.locate cwd path = .ok (.named directory name slash) ∧
      name.utf8ByteSize ≤ longestName ∧ tree.entry? (directory ++ [name]) = none ∧
      later = tree.put (directory ++ [name]) .directory := by
  unfold createDirectory
  rw [Configuration.bind_eq_ok]
  constructor
  · rintro ⟨target, located, outcome⟩
    cases target with
    | standing directory => cases outcome
    | named directory name slash =>
      dsimp only at outcome
      split at outcome
      · cases outcome
      · rename_i short
        split at outcome
        · cases outcome
        · rename_i absent
          exact ⟨directory, name, slash, located, Nat.not_lt.1 short, absent,
            (Except.ok.inj outcome).symm⟩
  · rintro ⟨directory, name, slash, located, short, absent, rfl⟩
    refine ⟨_, located, ?_⟩
    dsimp only
    rw [if_neg (Nat.not_lt.2 short), absent]
    rfl

private theorem ending_eq_named {directory : Location} {last : Option String} {slash ends : Bool} :
    ending here ends last = .named directory name slash ↔
      last = some name ∧ name ≠ "." ∧ name ≠ ".." ∧ here = directory ∧ ends = slash := by
  cases last with
  | none => simp [ending]
  | some title =>
    by_cases dot : title = "."
    · rw [dot]
      exact iff_of_false (by simp [ending]) fun found => found.2.1 (Option.some.inj found.1).symm
    · by_cases dots : title = ".."
      · rw [dots]
        exact iff_of_false (by simp [ending]) fun found =>
          found.2.2.1 (Option.some.inj found.1).symm
      · rw [ending_named dot dots, Target.named.injEq, Option.some.injEq]
        constructor
        · rintro ⟨rfl, rfl, rfl⟩
          exact ⟨rfl, dot, dots, rfl, rfl⟩
        · rintro ⟨rfl, _, _, rfl, rfl⟩
          exact ⟨rfl, rfl, rfl⟩

private theorem locate_eq_named {directory : Location} {slash : Bool} :
    tree.locate cwd path = .ok (.named directory name slash) ↔
      '\x00' ∉ path.text.toList ∧ path.text.utf8ByteSize ≤ longestPath ∧
        (names path).getLast? = some name ∧ name ≠ "." ∧ name ≠ ".." ∧
        (names path).dropLast.foldlM tree.enter (origin path cwd) = .ok directory ∧
        decide (path.text.toList.getLast? = some '/') = slash := by
  rw [locate_eq_ok]
  simp only [ending_eq_named, List.contains_eq_mem, decide_eq_false_iff_not]
  constructor
  · rintro ⟨clean, _, fits, _, walked, last, notDot, notDots, rfl, slash⟩
    exact ⟨clean, fits, last, notDot, notDots, walked, slash⟩
  · rintro ⟨clean, fits, last, notDot, notDots, walked, slash⟩
    refine ⟨clean, fun empty => ?_, fits, _, walked, last, notDot, notDots, rfl, slash⟩
    simp [names, pieces, empty] at last

private theorem names_of_last (last : (names path).getLast? = some name) :
    names path = (names path).dropLast ++ [name] :=
  (List.dropLast_append_getLast? name last).symm

private theorem place_of_named {directory : Location} {slash : Bool}
    (located : tree.locate cwd path = .ok (.named directory name slash)) :
    path.place cwd ∈ passes (origin path cwd) (names path) := by
  obtain ⟨_, _, last, notDot, notDots, walked, _⟩ := locate_eq_named.1 located
  obtain ⟨_, _, rfl⟩ := walk_iff_passes.1 walked
  rw [← location_of_locate located, names_of_last last, passes_append, List.dropLast_concat]
  simp [Target.location, passes, notDot, notDots]

/-- The places of these directories that are entered by a name of their own. -/
def Entered (cwd : Location) (directories : List FilePath) (location : Location) : Prop :=
  ∃ front ∈ directories, front.place cwd = location ∧ location ∈ passes (origin front cwd) (names front)

private theorem createDirectory_spares (created : tree.createDirectory cwd front = .ok later) :
    Spares (Entered cwd (front :: directories)) tree later := by
  obtain ⟨directory, name, slash, located, _, absent, rfl⟩ := createDirectory_eq_ok.1 created
  have place : directory ++ [name] = front.place cwd := location_of_locate located
  intro location
  unfold SparedAt
  rw [find_put _ _ (by simp)]
  split
  · rename_i same
    rw [same, place]
    exact .inr ⟨⟨front, List.mem_cons_self, rfl, place_of_named located⟩, place ▸ absent, rfl⟩
  · exact .inl rfl

private theorem ensureDirectories_spares (tree : FileTree) (cwd : Location)
    (directories : List FilePath) :
    Spares (Entered cwd directories) tree (tree.ensureDirectories cwd directories).1 := by
  induction directories with
  | nil => exact .refl _ tree
  | cons path outer ih =>
    have around : Spares (Entered cwd (path :: outer)) tree (tree.ensureDirectories cwd outer).1 :=
      ih.mono fun location ⟨front, member, entered⟩ =>
        ⟨front, List.mem_cons_of_mem path member, entered⟩
    unfold ensureDirectories
    dsimp only
    split
    · rename_i attempt
      exact createDirectory_spares attempt
    · split
      · rename_i nested
        rw [nested] at around
        exact around
      · rename_i nested
        rw [nested] at around
        split
        · rename_i again
          exact around.trans (createDirectory_spares again)
        · exact around
    · exact .refl _ tree

/-- A path that can be walked along at all, whatever is in the tree. -/
structure Usable (path : FilePath) : Prop where
  clean : '\x00' ∉ path.text.toList
  given : path.text.toList ≠ []
  fits : path.text.utf8ByteSize ≤ longestPath
  short : ∀ name ∈ names path, name.utf8ByteSize ≤ longestName

private theorem Usable.locate_eq (usable : Usable path) (tree : FileTree) (cwd : Location) :
    tree.locate cwd path =
      ((names path).dropLast.foldlM tree.enter (origin path cwd)).map fun directory =>
        ending directory (path.text.toList.getLast? = some '/') (names path).getLast? := by
  rw [FileTree.locate_eq, if_neg (by simpa using usable.clean), if_neg usable.given,
    if_neg (Nat.not_lt.2 usable.fits)]

theorem isDirectory_iff :
    tree.isDirectory cwd path = true ↔ tree.reach cwd path = .ok .directory := by
  unfold isDirectory
  split
  · rename_i reached
    exact iff_of_true rfl reached
  · rename_i other
    exact iff_of_false Bool.false_ne_true other

/-- A directory is there or can be made. -/
def Ready (tree : FileTree) (cwd : Location) (front : FilePath) : Prop :=
  (∃ later, tree.createDirectory cwd front = .ok later ∧ later.reach cwd front = .ok .directory) ∨
    tree.createDirectory cwd front = .error .alreadyExists ∧ tree.reach cwd front = .ok .directory

private theorem ready_of_walk {directory : Location} (usable : Usable front)
    (walked : (names front).dropLast.foldlM tree.enter (origin front cwd) = .ok directory)
    (clear : tree.Clear (passes (origin front cwd) (names front))) : tree.Ready cwd front := by
  have located := usable.locate_eq tree cwd
  rw [walked, Except.map] at located
  generalize ending directory _ _ = target at located
  cases target with
  | standing reached =>
    refine .inr ⟨?_, ?_⟩
    · rw [createDirectory, located]
      rfl
    · rw [reach_eq, located]
      rfl
  | named around name slash =>
    obtain ⟨_, _, last, _⟩ := locate_eq_named.1 located
    have short := usable.short name (List.mem_of_getLast? last)
    have place : around ++ [name] = front.place cwd := location_of_locate located
    cases there : tree.entry? (around ++ [name]) with
    | none =>
      have created := createDirectory_eq_ok.2 ⟨_, _, _, located, short, there, rfl⟩
      refine .inl ⟨_, created, ?_⟩
      rw [reach_eq, (createDirectory_keeps created).grows.locate located]
      change arrive _ (.named around name slash) = _
      rw [arrive, if_neg (Nat.not_lt.2 short), find_put _ _ (by simp), if_pos rfl]
    | some entry =>
      cases entry with
      | file content => exact absurd there (clear _ (place ▸ place_of_named located) content)
      | directory =>
        refine .inr ⟨?_, ?_⟩
        · rw [createDirectory, located]
          change (if name.utf8ByteSize > longestName then _ else _) = _
          rw [if_neg (Nat.not_lt.2 short), there]
          rfl
        · rw [reach_eq, located]
          change arrive _ (.named around name slash) = _
          rw [arrive, if_neg (Nat.not_lt.2 short), there]

private theorem createDirectory_of_stuck (usable : Usable front)
    (stuck : (names front).dropLast.foldlM tree.enter (origin front cwd) = .error .notFound) :
    tree.createDirectory cwd front = .error .notFound := by
  rw [createDirectory, usable.locate_eq, stuck]
  rfl

private theorem ensureDirectories_of_ready (ready : tree.Ready cwd front) (outer : List FilePath) :
    ∃ later, tree.ensureDirectories cwd (front :: outer) = (later, .ok ()) ∧
      later.reach cwd front = .ok .directory := by
  unfold ensureDirectories
  dsimp only
  rcases ready with ⟨later, created, reached⟩ | ⟨present, reached⟩
  · rw [created]
    exact ⟨later, rfl, reached⟩
  · rw [present]
    refine ⟨tree, ?_, reached⟩
    dsimp only
    rw [if_pos (isDirectory_iff.2 reached)]

private theorem ensureDirectories_of_missing {outer : List FilePath}
    (missing : tree.createDirectory cwd front = .error .notFound)
    (around : tree.ensureDirectories cwd outer = (middle, .ok ()))
    (ready : middle.Ready cwd front) :
    ∃ later, tree.ensureDirectories cwd (front :: outer) = (later, .ok ()) ∧
      later.reach cwd front = .ok .directory := by
  unfold ensureDirectories
  dsimp only
  rw [missing]
  dsimp only
  rw [around]
  dsimp only
  rcases ready with ⟨later, created, reached⟩ | ⟨present, reached⟩
  · rw [created]
    exact ⟨later, rfl, reached⟩
  · rw [present]
    refine ⟨middle, ?_, reached⟩
    dsimp only
    rw [if_pos (isDirectory_iff.2 reached)]

private theorem walk_dots (dotted : ∀ dot ∈ titles, dot = ".") :
    titles.foldlM tree.enter here = .ok here := by
  induction titles with
  | nil => rfl
  | cons dot rest ih =>
    obtain ⟨rfl, later⟩ := List.forall_mem_cons.1 dotted
    rw [List.foldlM_cons]
    exact ih later

/-- Directories that lead one into the next are made from the outermost on, as far as they are
missing, if no file is in the way. -/
theorem ensureDirectories_of_ladder {origin : Location} (ladder : Ladder directories)
    (usable : ∀ front ∈ directories, Usable front ∧ FileTree.origin front cwd = origin)
    (clear : tree.Clear (passes origin (reachedNames directories))) :
    ∃ later, tree.ensureDirectories cwd directories = (later, .ok ()) ∧
      ∃ here, (reachedNames directories).foldlM later.enter origin = .ok here := by
  induction ladder with
  | nil => exact ⟨tree, rfl, origin, rfl⟩
  | @cons front outer dots name around dotted named ih =>
    obtain ⟨⟨usableFront, same⟩, usableOuter⟩ := List.forall_mem_cons.1 usable
    have opened : reachedNames (front :: outer) = names front := rfl
    rw [opened] at clear ⊢
    have init : (names front).dropLast = reachedNames outer ++ dots := by
      rw [named, List.dropLast_concat]
    -- It is enough to arrive at the directory: then one can walk there.
    suffices made : ∃ later, tree.ensureDirectories cwd (front :: outer) = (later, .ok ()) ∧
        later.reach cwd front = .ok .directory by
      obtain ⟨later, ensured, reached⟩ := made
      exact ⟨later, ensured, _, same ▸ walk_of_directory reached⟩
    have clearFront : tree.Clear (passes (FileTree.origin front cwd) (names front)) := same ▸ clear
    have clearInit : tree.Clear (passes (FileTree.origin front cwd) (names front).dropLast) := by
      rw [named] at clearFront ⊢
      rw [List.dropLast_concat]
      exact clearFront.before
    have shortInit : ∀ title ∈ (names front).dropLast, title.utf8ByteSize ≤ longestName :=
      fun title member => usableFront.short title (List.mem_of_mem_dropLast member)
    rcases walk_of_clear shortInit clearInit with ⟨directory, walked⟩ | stuck
    · exact ensureDirectories_of_ready (ready_of_walk usableFront walked clearFront) outer
    · have clearOuter : tree.Clear (passes origin (reachedNames outer)) := by
        rw [named, List.append_assoc] at clear
        exact clear.before
      obtain ⟨above, ensured, here, walked⟩ := ih usableOuter clearOuter
      have spares := tree.ensureDirectories_spares cwd outer
      rw [ensured] at spares
      have walkedInit : (names front).dropLast.foldlM above.enter (FileTree.origin front cwd) =
          .ok here := by
        rw [init, List.foldlM_append, same]
        exact Configuration.bind_eq_ok.2 ⟨here, walked, walk_dots dotted⟩
      exact ensureDirectories_of_missing (createDirectory_of_stuck usableFront stuck) ensured
        (ready_of_walk usableFront walkedInit (spares.clear clearFront))

end FileTree

namespace Disk

open FileTree (SparedAt Spares Entered Usable passes)

variable {disk : Disk} {path front : FilePath} {text : String}

/-- The path is a name for a file, short enough and not that of a directory, and neither a file nor
the destination itself stands where a directory is needed. -/
structure Admits (disk : Disk) (path : FilePath) : Prop where
  clean : '\x00' ∉ path.text.toList
  fits : path.text.utf8ByteSize ≤ FileTree.longestPath
  short : ∀ name ∈ FileTree.names path, name.utf8ByteSize ≤ FileTree.longestName
  named : ∃ name, (FileTree.names path).getLast? = some name ∧ name ≠ "." ∧ name ≠ ".."
  slashless : path.text.toList.getLast? ≠ some '/'
  around : ∀ location ∈ passes (FileTree.origin path disk.cwd) (FileTree.names path).dropLast,
    location ≠ path.place disk.cwd ∧ ∀ content, disk.tree.entry? location ≠ some (.file content)
  free : disk.tree.entry? (path.place disk.cwd) ≠ some .directory

private theorem Admits.usable (admits : disk.Admits path) (member : front ∈ path.enclosing) :
    Usable front := by
  obtain ⟨before, after, cut⟩ := FilePath.exists_cut member
  obtain ⟨rest, spelled⟩ := cut.encloses.spelled
  obtain ⟨more, _, names⟩ := cut.names_eq
  have longer : path.text = front.text ++ String.ofList ('/' :: rest) := by
    rw [← String.toList_inj, spelled, String.toList_append, String.toList_ofList]
  refine ⟨fun nul => admits.clean ?_, fun empty => cut.given (String.toList_eq_nil_iff.1 empty),
    Nat.le_trans ?_ admits.fits, fun name inside => admits.short name ?_⟩
  · rw [spelled]
    exact List.mem_append_left _ nul
  · rw [longer, String.utf8ByteSize_append]
    exact Nat.le_add_right _ _
  · rw [names]
    exact List.mem_append_left more inside

private theorem passes_of_enclosing {location : Location} (member : front ∈ path.enclosing)
    (passed : location ∈ passes (FileTree.origin front disk.cwd) (FileTree.names front)) :
    location ∈ passes (FileTree.origin path disk.cwd) (FileTree.names path).dropLast := by
  obtain ⟨before, after, cut⟩ := FilePath.exists_cut member
  obtain ⟨more, some, names⟩ := cut.names_eq
  rw [← cut.encloses.origin_eq, names, List.dropLast_append_of_ne_nil some, FileTree.passes_append]
  exact List.mem_append_left _ passed

private theorem store_cases (disk : Disk) (path : FilePath) (text : String) :
    ∃ made, Spares (Entered disk.cwd path.enclosing) disk.tree made ∧
      ((∃ failure, disk.store path text = (⟨made, disk.cwd⟩, .error failure)) ∨
        ∃ later, made.writeText disk.cwd path text = .ok later ∧
          disk.store path text = (⟨later, disk.cwd⟩, .ok ())) := by
  have spares := disk.tree.ensureDirectories_spares disk.cwd path.enclosing
  unfold store ensureDirectories writeText
  dsimp only
  rcases ensured : disk.tree.ensureDirectories disk.cwd path.enclosing with ⟨made, outcome⟩
  rw [ensured] at spares
  refine ⟨made, spares, ?_⟩
  cases outcome with
  | error failure => exact .inl ⟨failure, rfl⟩
  | ok done =>
    dsimp only
    cases made.writeText disk.cwd path text with
    | error failure => exact .inl ⟨failure, rfl⟩
    | ok later => exact .inr ⟨later, rfl, rfl⟩

private theorem admits_of_written {made later : FileTree}
    (spares : Spares (Entered disk.cwd path.enclosing) disk.tree made)
    (wrote : made.writeText disk.cwd path text = .ok later) : disk.Admits path := by
  obtain ⟨directory, name, located, short, free, _⟩ := FileTree.writeText_eq_ok.1 wrote
  have place : directory ++ [name] = path.place disk.cwd := FileTree.location_of_locate located
  obtain ⟨clean, fits, last, notDot, notDots, walked, slash⟩ := FileTree.locate_eq_named.1 located
  obtain ⟨shorts, there, _⟩ := FileTree.walk_iff_passes.1 walked
  rw [place] at free
  refine ⟨clean, fits, ?_, ⟨name, last, notDot, notDots⟩, of_decide_eq_false slash,
    fun location member => ⟨?_, fun content file => ?_⟩, fun taken => ?_⟩
  · rw [FileTree.names_of_last last]
    exact List.forall_mem_append.2 ⟨shorts, List.forall_mem_singleton.2 short⟩
  · rintro rfl
    exact free (there _ member)
  · rcases spares location with same | ⟨_, absent, _⟩
    · rw [there location member, file] at same
      cases same
    · rw [file] at absent
      cases absent
  · rcases spares (path.place disk.cwd) with same | ⟨_, absent, _⟩
    · exact free (same.trans taken)
    · rw [taken] at absent
      cases absent

private theorem Admits.exists_written (admits : disk.Admits path) (text : String) :
    ∃ next, disk.store path text = (next, .ok ()) := by
  obtain ⟨name, last, notDot, notDots⟩ := admits.named
  obtain ⟨dots, dotted, names⟩ := FileTree.names_eq_reached last notDot
  have init : (FileTree.names path).dropLast = FileTree.reachedNames path.enclosing ++ dots := by
    rw [names, List.dropLast_concat]
  have clear : disk.tree.Clear (passes (FileTree.origin path disk.cwd)
      (FileTree.reachedNames path.enclosing)) := by
    have clearInit : disk.tree.Clear (passes (FileTree.origin path disk.cwd)
        (FileTree.names path).dropLast) := fun location member => (admits.around location member).2
    rw [init] at clearInit
    exact clearInit.before
  have usable : ∀ front ∈ path.enclosing, Usable front ∧
      FileTree.origin front disk.cwd = FileTree.origin path disk.cwd := fun front member =>
    ⟨admits.usable member, (FilePath.encloses_of_mem member).origin_eq disk.cwd⟩
  obtain ⟨made, ensured, here, walked⟩ :=
    FileTree.ensureDirectories_of_ladder (FileTree.ladder_enclosing path) usable clear
  have spares := disk.tree.ensureDirectories_spares disk.cwd path.enclosing
  rw [ensured] at spares
  have walkedInit : (FileTree.names path).dropLast.foldlM made.enter
      (FileTree.origin path disk.cwd) = .ok here := by
    rw [init, List.foldlM_append]
    exact Configuration.bind_eq_ok.2 ⟨here, walked, FileTree.walk_dots dotted⟩
  have located : made.locate disk.cwd path = .ok (.named here name false) :=
    FileTree.locate_eq_named.2 ⟨admits.clean, admits.fits, last, notDot, notDots, walkedInit,
      decide_eq_false admits.slashless⟩
  have place : here ++ [name] = path.place disk.cwd := FileTree.location_of_locate located
  have free : made.entry? (here ++ [name]) ≠ some .directory := by
    rw [place]
    intro taken
    rcases spares (path.place disk.cwd) with same | ⟨⟨front, member, _, passed⟩, _⟩
    · exact admits.free (same.symm.trans taken)
    · exact (admits.around _ (passes_of_enclosing member passed)).1 rfl
  have wrote : made.writeText disk.cwd path text =
      .ok (made.put (here ++ [name]) (.file text.toUTF8)) :=
    FileTree.writeText_eq_ok.2 ⟨here, name, located,
      admits.short name (List.mem_of_getLast? last), free, rfl⟩
  refine ⟨⟨made.put (here ++ [name]) (.file text.toUTF8), disk.cwd⟩, ?_⟩
  unfold store ensureDirectories writeText
  dsimp only
  rw [ensured]
  dsimp only
  rw [wrote]
  rfl

def Around (disk : Disk) (path : FilePath) (location : Location) : Prop :=
  ∃ front : FilePath, front.Encloses path ∧ front.place disk.cwd = location

private theorem around_of_entered {location : Location}
    (entered : Entered disk.cwd path.enclosing location) : disk.Around path location := by
  obtain ⟨front, member, place, _⟩ := entered
  exact ⟨front, FilePath.encloses_of_mem member, place⟩

/-- Storing a text succeeds on the disks that admit it. Then the text is where the path leads, and
every other place is spared, as all places are after a failure. -/
theorem store_frame (disk : Disk) (path : FilePath) (text : String) :
    ∃ next outcome, disk.store path text = (next, outcome) ∧ next.cwd = disk.cwd ∧
      (outcome = .ok () ↔ disk.Admits path) ∧
      (outcome = .ok () → next.readText path = .ok text ∧
        disk.tree.entry? (path.place disk.cwd) ≠ some .directory ∧
        next.tree.entry? (path.place disk.cwd) = some (.file text.toUTF8) ∧
        ∀ location, location ≠ path.place disk.cwd →
          SparedAt (disk.Around path) disk.tree next.tree location) ∧
      (outcome ≠ .ok () → Spares (disk.Around path) disk.tree next.tree) := by
  obtain ⟨made, entered, cases⟩ := disk.store_cases path text
  have spares := entered.mono fun _ => around_of_entered
  rcases cases with ⟨failure, stored⟩ | ⟨later, wrote, stored⟩
  · refine ⟨_, _, stored, rfl, iff_of_false nofun fun admits => ?_, nofun, fun _ => spares⟩
    obtain ⟨next, written⟩ := admits.exists_written text
    rw [stored] at written
    cases written
  · have admits := admits_of_written entered wrote
    refine ⟨_, _, stored, rfl, iff_of_true rfl admits,
      fun _ => ⟨readText_store stored, admits.free, ?_⟩, fun fails => absurd rfl fails⟩
    obtain ⟨directory, name, located, _, _, rfl⟩ := FileTree.writeText_eq_ok.1 wrote
    have place : directory ++ [name] = path.place disk.cwd := FileTree.location_of_locate located
    have given : path.place disk.cwd ≠ [] := place ▸ List.concat_ne_nil name directory
    rw [place]
    refine ⟨by rw [FileTree.find_put _ _ given, if_pos rfl], fun location other => ?_⟩
    unfold SparedAt
    rw [FileTree.find_put _ _ given, if_neg other]
    exact spares location

end Disk

namespace Session

open FileTree (Spares SparedAt)

/-- Handing over a text for a file succeeds on the disks that admit it. Then the text is read back,
nothing is lost and every other place has what it had, but that nothing may have become a directory
around the path; after a failure that holds of all places. Nothing is printed either way. -/
theorem deliver_frame (text : String) (path : FilePath) (transcript : Transcript) :
    ∃ outcome disk events, runFrom (deliver text (some path)) transcript =
        (outcome, { transcript with disk := disk, events := events }) ∧
      disk.cwd = transcript.disk.cwd ∧
      (outcome = .ok () ↔ transcript.disk.Admits path) ∧
      (outcome = .ok () → disk.readText path = .ok text ∧
        transcript.disk.tree.entry? (path.place disk.cwd) ≠ some .directory ∧
        disk.tree.entry? (path.place disk.cwd) = some (.file text.toUTF8) ∧
        ∀ location, location ≠ path.place disk.cwd →
          SparedAt (transcript.disk.Around path) transcript.disk.tree disk.tree location) ∧
      (outcome ≠ .ok () →
        Spares (transcript.disk.Around path) transcript.disk.tree disk.tree) := by
  obtain ⟨disk, outcome, stored, here, success, kept, spared⟩ :=
    transcript.disk.store_frame path text
  rw [runFrom_deliver, stored]
  cases outcome with
  | ok done =>
    refine ⟨_, disk, _, rfl, here, iff_of_true rfl (success.1 rfl), fun _ => ?_,
      fun fails => absurd rfl fails⟩
    rw [here]
    exact kept rfl
  | error failure =>
    exact ⟨_, disk, _, rfl, here, iff_of_false nofun (mt success.2 nofun), nofun,
      fun _ => spared nofun⟩

/-- Two directories are made before a file is found in the way. -/
def blocked : FilePath := ⟨"made/inner/../../bundle.toml/plan.out"⟩

theorem deliver_frame_blocked : ∃ failure disk events,
    runFrom (deliver "text" (some blocked)) ⟨configured, "before", "", []⟩ =
        (.error failure, ⟨disk, "before", "", events⟩) ∧
      disk.tree.entry? ["work", "made", "inner"] = some .directory ∧ ¬ configured.Admits blocked ∧
      Spares (configured.Around blocked) configured.tree disk.tree := by
  obtain ⟨outcome, disk, events, run, _, success, _, spared⟩ :=
    deliver_frame "text" blocked ⟨configured, "before", "", []⟩
  have fails : (runFrom (deliver "text" (some blocked)) ⟨configured, "before", "", []⟩).1.isOk =
      false := rfl
  have made : (runFrom (deliver "text" (some blocked))
      ⟨configured, "before", "", []⟩).2.disk.tree.entry? ["work", "made", "inner"] =
        some .directory := rfl
  rw [run] at fails made
  cases outcome with
  | ok done => cases fails
  | error failure => exact ⟨failure, disk, events, run, made, mt success.2 nofun, spared nofun⟩

end Session
end BundlePlan
