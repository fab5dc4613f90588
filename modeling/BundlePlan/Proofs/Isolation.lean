import BundlePlan.Proofs.Lookups
import BundlePlan.Proofs.Storage
import Mathlib.Data.Finset.Card

/-! Modules do not disturb each other. What a catalog answers for a module after any number of
changes is what was stated about it last, or what its own file in the last manifest directory says;
neither statements about other modules nor other files have a part in it. -/
namespace BundlePlan

private theorem FileTree.sameShape_put_file {tree : FileTree} {location : Location}
    {content : ByteArray} (given : location ≠ [])
    (there : tree.entry? location = some (.file content)) (other : ByteArray) :
    tree.SameShape (tree.put location (.file other)) := by
  intro here
  rw [find_put _ _ given]
  split
  · rename_i same
    rw [same, there]
    rfl
  · rfl

namespace Disk

variable {disk later : Disk} {directory path : FilePath} {id : ModuleId} {content : String}

def manifestPlace (disk : Disk) (directory : FilePath) (id : ModuleId) : Location :=
  directory.place disk.cwd ++ [id.fileName]

/-- Two disks that may differ in anything but the manifest file of the module: either no more than
the contents of files differ, or the directory is there on both of them. -/
structure Agree (disk later : Disk) (directory : FilePath) (id : ModuleId) : Prop where
  cwd : later.cwd = disk.cwd
  file : disk.tree.entry? (disk.manifestPlace directory id) =
    later.tree.entry? (disk.manifestPlace directory id)
  others : disk.tree.SameShape later.tree ∨
    disk.tree.reach disk.cwd directory = .ok .directory ∧
      later.tree.reach disk.cwd directory = .ok .directory

private theorem place_fileName (directory : FilePath) (id : ModuleId) (cwd : Location) :
    (directory.beneath id.fileName).place cwd = directory.place cwd ++ [id.fileName] :=
  FileTree.place_beneath directory id.isFileName cwd

private theorem Agree.readText (agree : disk.Agree later directory id) :
    disk.readText (directory.beneath id.fileName) =
      later.readText (directory.beneath id.fileName) := by
  unfold Disk.readText
  rw [agree.cwd]
  refine FileTree.readText_congr ?_
  rcases agree.others with shape | ⟨there, thereToo⟩
  · refine FileTree.reach_congr (shape.locate _ _) ?_
    rw [place_fileName]
    exact agree.file
  · have reached {tree : FileTree} (there : tree.reach disk.cwd directory = .ok .directory) :=
      FileTree.reach_beneath there id.isFileName
    rw [reached there, reached thereToo]
    have same := agree.file
    unfold manifestPlace at same
    simp only [FileTree.arrive, same]

/-- Writing another file, be it a new one in the directory, is no disturbance. -/
theorem agree_of_writeText (wrote : disk.writeText path content = .ok later)
    (apart : path.place disk.cwd ≠ disk.manifestPlace directory id)
    (kept : disk.pathExists path = true ∨
      disk.tree.reach disk.cwd directory = .ok .directory) :
    disk.Agree later directory id := by
  obtain ⟨tree, stored, made⟩ := Configuration.bind_eq_ok.1 wrote
  obtain rfl := Except.ok.inj made
  obtain ⟨around, name, located, short, free, rfl⟩ := FileTree.writeText_eq_ok.1 stored
  have place : around ++ [name] = path.place disk.cwd := FileTree.location_of_locate located
  refine ⟨rfl, ?_, ?_⟩
  · rw [FileTree.find_put _ _ (by simp), if_neg]
    rw [place]
    exact apart.symm
  · rcases kept with there | present
    · obtain ⟨entry, reached⟩ := pathExists_iff.1 there
      rw [FileTree.reach_eq, located] at reached
      cases found : disk.tree.entry? (around ++ [name]) with
      | none =>
        simp [FileTree.arrive, found, Nat.not_lt.2 short] at reached
      | some before =>
        cases before with
        | directory => exact absurd found free
        | file content => exact .inl (FileTree.sameShape_put_file (by simp) found _)
    · exact .inr ⟨present, (FileTree.grows_put_file free (by simp) _).reach_directory present⟩

end Disk

namespace Catalog

/-- What can be done to a catalog. -/
inductive Change
  | declare (id : ModuleId) (dependencies : List ModuleId)
  | declareQuery (id : ModuleId) (answer : List ModuleId)
  | declareWith (id : ModuleId) (declaration : Declaration)
  | declareEmpty (id : ModuleId)
  | declareMalformed (id : ModuleId) (reason : String)
  | setDirectory (directory : FilePath)

def apply (catalog : Catalog) : Change → Catalog
  | .declare id dependencies => catalog.declare id dependencies
  | .declareQuery id answer => catalog.declareQuery id answer
  | .declareWith id declaration => catalog.declareWith id declaration
  | .declareEmpty id => catalog.declareEmpty id
  | .declareMalformed id reason => catalog.declareMalformed id reason
  | .setDirectory directory => catalog.setDirectory directory

def after (catalog : Catalog) (changes : List Change) : Catalog := changes.foldl apply catalog

namespace Change

def statement? : Change → Option (ModuleId × Except Malformation Declaration)
  | declare id dependencies => some (id, .ok (.fixed (.ofList dependencies)))
  | declareQuery id answer => some (id, .ok (.query answer))
  | declareWith id declaration => some (id, .ok declaration)
  | declareEmpty id => some (id, .ok .none)
  | declareMalformed id reason => some (id, .error (.stated reason))
  | setDirectory _ => none

def directory? : Change → Option FilePath
  | setDirectory directory => some directory
  | _ => none

def subject? (change : Change) : Option ModuleId := change.statement?.map Prod.fst

def about? (id : ModuleId) (change : Change) : Option (Except Malformation Declaration) :=
  (change.statement?.filter fun statement => statement.1 = id).map Prod.snd

end Change

def lastStated? (changes : List Change) (id : ModuleId) :
    Option (Except Malformation Declaration) :=
  changes.reverse.findSome? (Change.about? id)

/-- The directory set last, or else the one at the start. -/
def lastDirectory? (start : Option FilePath) (changes : List Change) : Option FilePath :=
  (changes.reverse.findSome? Change.directory?).or start

/-- The answer as decided by what was stated last or else by the manifest file. -/
def decided (disk : Disk) (id : ModuleId) (stated? : Option (Except Malformation Declaration))
    (directory? : Option FilePath) : Logged (Except LookupFailure Declaration) :=
  match stated?, directory? with
  | some (.ok declaration), _ => pure (.ok declaration)
  | some (.error reason), _ => pure (.error (.malformed id reason))
  | none, none => pure (.error (.missing id))
  | none, some directory =>
    let path := directory.beneath id.fileName
    ⟨readManifest disk id path, [.loadingManifest id path], []⟩

/-- The dependencies that an answer about `id` stands for. -/
def needed (id : ModuleId) (answer : Logged (Except LookupFailure Declaration)) :
    Logged ModuleSet := do
  match ← answer with
  | .ok declaration => declaration.evaluate id
  | .error failure =>
    Logged.report (.withoutDependencies failure)
    return ∅

variable {catalog : Catalog} {changes : List Change} {change : Change} {id : ModuleId}
  {disk : Disk}

private theorem dependencies_eq_needed (catalog : Catalog) (disk : Disk) (id : ModuleId) :
    catalog.dependencies disk id = needed id (catalog.declaration disk id) := rfl

private theorem find?_apply (catalog : Catalog) (change : Change) (id : ModuleId) :
    (catalog.apply change).stated.find? id = (change.about? id).or (catalog.stated.find? id) := by
  have inserted (key : ModuleId) (entry : Except Malformation Declaration)
      (states : change.statement? = some (key, entry)) :
      (catalog.stated.insert key entry).find? id =
        (change.about? id).or (catalog.stated.find? id) := by
    rw [Dictionary.find?_insert, Change.about?, states]
    by_cases same : key = id <;> simp [Option.filter, same]
  cases change with
  | setDirectory directory => rfl
  | _ => exact inserted _ _ rfl

private theorem directory_apply (catalog : Catalog) (change : Change) :
    (catalog.apply change).directory = change.directory?.or catalog.directory := by
  cases change <;> rfl

private theorem find?_after (catalog : Catalog) (changes : List Change) (id : ModuleId) :
    (catalog.after changes).stated.find? id =
      (lastStated? changes id).or (catalog.stated.find? id) := by
  induction changes using List.reverseRecOn with
  | nil => rfl
  | append_singleton before last ih =>
    unfold after lastStated? at ih ⊢
    rw [List.foldl_concat, find?_apply, ih, List.reverse_concat, List.findSome?_cons]
    cases last.about? id <;> rfl

private theorem find?_start (start : Option FilePath) (changes : List Change) (id : ModuleId) :
    (after ⟨∅, start⟩ changes).stated.find? id = lastStated? changes id := by
  have nothing : (∅ : Dictionary ModuleId (Except Malformation Declaration)).find? id = none := rfl
  rw [find?_after, nothing, Option.or_none]

private theorem directory_after (catalog : Catalog) (changes : List Change) :
    (catalog.after changes).directory = lastDirectory? catalog.directory changes := by
  induction changes using List.reverseRecOn with
  | nil => rfl
  | append_singleton before last ih =>
    unfold after lastDirectory? at ih ⊢
    rw [List.foldl_concat, directory_apply, ih, List.reverse_concat, List.findSome?_cons]
    cases last.directory? <;> rfl

private theorem declaration_eq_decided (catalog : Catalog) (disk : Disk) (id : ModuleId) :
    catalog.declaration disk id = decided disk id (catalog.stated.find? id) catalog.directory := by
  unfold declaration decided manifestPath?
  cases catalog.stated.find? id with
  | some entry => cases entry <;> rfl
  | none => cases catalog.directory <;> rfl

theorem about?_eq_none : change.about? id = none ↔ change.subject? ≠ some id := by
  unfold Change.about? Change.subject?
  cases change.statement? with
  | none => simp
  | some statement => simp [Option.filter]

theorem lastStated?_eq_none :
    lastStated? changes id = none ↔ id ∉ changes.filterMap Change.subject? := by
  simp only [lastStated?, List.findSome?_eq_none_iff, List.mem_reverse, about?_eq_none,
    List.mem_filterMap, not_exists, not_and, ne_eq]

private theorem lastStated?_append {more : List Change}
    (elsewhere : id ∉ more.filterMap Change.subject?) :
    lastStated? (changes ++ more) id = lastStated? changes id := by
  unfold lastStated?
  rw [List.reverse_append, List.findSome?_append, ← lastStated?, lastStated?_eq_none.2 elsewhere]
  rfl

private theorem lastDirectory?_append {start : Option FilePath} {more : List Change}
    (unmoved : ∀ change ∈ more, change.directory? = none) :
    lastDirectory? start (changes ++ more) = lastDirectory? start changes := by
  have none : more.reverse.findSome? Change.directory? = none :=
    List.findSome?_eq_none_iff.2 fun change inside => unmoved change (List.mem_reverse.1 inside)
  unfold lastDirectory?
  rw [List.reverse_append, List.findSome?_append, none, Option.none_or]

private theorem declaration_after (start : Option FilePath) (changes : List Change) (disk : Disk)
    (id : ModuleId) : (after ⟨∅, start⟩ changes).declaration disk id =
      decided disk id (lastStated? changes id) (lastDirectory? start changes) := by
  rw [declaration_eq_decided, find?_start, directory_after]

private theorem size_after (start : Option FilePath) (changes : List Change) :
    (after ⟨∅, start⟩ changes).size = (changes.filterMap Change.subject?).toFinset.card := by
  have keys (id : ModuleId) : id ∈ (after ⟨∅, start⟩ changes).stated.keys ↔
      id ∈ changes.filterMap Change.subject? := by
    rw [← not_iff_not, ← lastStated?_eq_none, ← Dictionary.find?_eq_none_iff, find?_start]
  have same : (after ⟨∅, start⟩ changes).stated.keys.toFinset =
      (changes.filterMap Change.subject?).toFinset := by
    ext id
    rw [List.mem_toFinset, List.mem_toFinset, keys]
  have distinct : (after ⟨∅, start⟩ changes).stated.keys.Nodup :=
    (after ⟨∅, start⟩ changes).stated.distinct
  rw [← same, List.toFinset_card_of_nodup distinct]
  exact (List.length_map _).symm

/-- The same answer for the module and the same dependencies, with the same reports. -/
structure SameAnswer (first : Catalog) (disk : Disk) (second : Catalog) (later : Disk)
    (id : ModuleId) : Prop where
  declaration : first.declaration disk id = second.declaration later id
  dependencies : first.dependencies disk id = second.dependencies later id

private theorem sameAnswer_of_declaration {first second : Catalog} {later : Disk}
    (same : first.declaration disk id = second.declaration later id) :
    SameAnswer first disk second later id :=
  ⟨same, by rw [dependencies_eq_needed, dependencies_eq_needed, same]⟩

private theorem decided_congr {later : Disk} {stated? : Option (Except Malformation Declaration)}
    {directory? : Option FilePath}
    (agree : stated? = none → ∀ directory ∈ directory?, disk.Agree later directory id) :
    decided disk id stated? directory? = decided later id stated? directory? := by
  cases stated? with
  | some entry => cases entry <;> rfl
  | none =>
    cases directory? with
    | none => rfl
    | some directory =>
      have same := (agree rfl directory rfl).readText
      simp only [decided, readManifest, same]

/-- What a catalog after these changes answers for one module is decided by what was stated about it
last, or else by its file. Further statements about others, other files and texts written elsewhere
change nothing; and the file lies directly in the directory and is that of no other module. -/
structure Isolated (start : Option FilePath) (changes : List Change) (id : ModuleId) : Prop where
  declaration (disk : Disk) : (after ⟨∅, start⟩ changes).declaration disk id =
    decided disk id (lastStated? changes id) (lastDirectory? start changes)
  dependencies (disk : Disk) : (after ⟨∅, start⟩ changes).dependencies disk id =
    needed id (decided disk id (lastStated? changes id) (lastDirectory? start changes))
  statements (disk : Disk) (more : List Change)
    (elsewhere : ∀ change ∈ more, ∃ other ≠ id, change.subject? = some other) :
    SameAnswer (after ⟨∅, start⟩ (changes ++ more)) disk (after ⟨∅, start⟩ changes) disk id
  files (disk later : Disk) (agree : lastStated? changes id = none →
      ∀ directory ∈ lastDirectory? start changes, disk.Agree later directory id) :
    SameAnswer (after ⟨∅, start⟩ changes) disk (after ⟨∅, start⟩ changes) later id
  writes (disk later : Disk) (path : FilePath) (content : String)
    (wrote : disk.writeText path content = .ok later)
    (apart : ∀ directory ∈ lastDirectory? start changes,
      path.place disk.cwd ≠ disk.manifestPlace directory id)
    (kept : disk.pathExists path = true ∨ ∀ directory ∈ lastDirectory? start changes,
      disk.tree.reach disk.cwd directory = .ok .directory) :
    SameAnswer (after ⟨∅, start⟩ changes) disk (after ⟨∅, start⟩ changes) later id
  own (disk : Disk) (directory : FilePath) :
    (directory.beneath id.fileName).place disk.cwd = directory.place disk.cwd ++ [id.fileName] ∧
      ∀ other ≠ id, (directory.beneath other.fileName).place disk.cwd ≠
        (directory.beneath id.fileName).place disk.cwd

/-- Failures are isolated: whatever was done to a catalog, its answer for a module is that of the
last statement about the module, and without one that of the module's own file. -/
theorem after_isolated (start : Option FilePath) (changes : List Change) :
    (∀ id, Isolated start changes id) ∧
      (after ⟨∅, start⟩ changes).size = (changes.filterMap Change.subject?).toFinset.card := by
  have files (id : ModuleId) (disk later : Disk) (agree : lastStated? changes id = none →
      ∀ directory ∈ lastDirectory? start changes, disk.Agree later directory id) :
      SameAnswer (after ⟨∅, start⟩ changes) disk (after ⟨∅, start⟩ changes) later id :=
    sameAnswer_of_declaration (by
      rw [declaration_after, declaration_after, decided_congr agree])
  refine ⟨fun id => ?_, size_after start changes⟩
  refine {
    declaration := fun disk => declaration_after start changes disk id
    dependencies := fun disk => by rw [dependencies_eq_needed, declaration_after]
    statements := fun disk more elsewhere => ?_
    files := files id
    writes := fun disk later path content wrote apart kept => ?_
    own := fun disk directory => ⟨Disk.place_fileName directory id disk.cwd, ?_⟩ }
  · have unstated : id ∉ more.filterMap Change.subject? := by
      intro member
      obtain ⟨change, inside, states⟩ := List.mem_filterMap.1 member
      obtain ⟨other, different, statesOther⟩ := elsewhere change inside
      exact different (Option.some.inj (statesOther.symm.trans states))
    have unmoved : ∀ change ∈ more, change.directory? = none := by
      intro change inside
      obtain ⟨_, _, states⟩ := elsewhere change inside
      cases change with
      | setDirectory _ => cases states
      | _ => rfl
    exact sameAnswer_of_declaration (by
      rw [declaration_after, declaration_after, lastStated?_append unstated,
        lastDirectory?_append unmoved])
  · refine files id disk later fun _ directory chosen => ?_
    exact Disk.agree_of_writeText wrote (apart directory chosen)
      (kept.imp_right fun present => present directory chosen)
  · intro other different same
    rw [Disk.place_fileName, Disk.place_fileName, List.append_cancel_left_eq,
      List.singleton_inj] at same
    exact different (ModuleId.fileName_inj.1 same)

/-- The manifest of another module is written into the directory, and that module is stated to be
of no use; the module whose manifest was there keeps it. -/
theorem after_isolated_shelf : ∃ later,
    shelf.writeText ⟨"m/ext.b.toml"⟩ "dependencies = 1" = .ok later ∧
      SameAnswer (after ⟨∅, some ⟨"m"⟩⟩ [.declareMalformed Resolver.extB "of no use"]) later
        (after ⟨∅, some ⟨"m"⟩⟩ []) later Resolver.extA ∧
      SameAnswer (after ⟨∅, some ⟨"m"⟩⟩ []) shelf (after ⟨∅, some ⟨"m"⟩⟩ []) later
        Resolver.extA := by
  obtain ⟨isolated, _⟩ := after_isolated (some ⟨"m"⟩) []
  have mine := isolated Resolver.extA
  refine ⟨_, rfl, mine.statements _ _ fun change inside => ?_, mine.writes shelf _ ⟨"m/ext.b.toml"⟩
    "dependencies = 1" rfl (fun directory chosen => ?_) (.inr fun directory chosen => ?_)⟩
  · obtain rfl := List.mem_singleton.1 inside
    exact ⟨Resolver.extB, by decide, rfl⟩
  · obtain rfl := Option.some.inj chosen
    decide
  · obtain rfl := Option.some.inj chosen
    rfl

end Catalog
end BundlePlan
