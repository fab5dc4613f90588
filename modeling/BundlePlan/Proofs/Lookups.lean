import BundlePlan.Proofs.LiveRows
import BundlePlan.Proofs.Walks

/-! What a lookup answers for a module that nothing was stated about. Its manifest file lies
directly inside the manifest directory; the answer depends on whether anything can be found there
and on what it says. Only a name that is not there counts as missing: where the way to the file is
barred nothing can be there either, and the manifest is taken to be malformed all the same. -/
namespace BundlePlan

namespace ModuleId

variable {id other : ModuleId} {c : Char}

def fileName (id : ModuleId) : String := id.text ++ ".toml"

private theorem toList_fileName (id : ModuleId) :
    id.fileName.toList = id.text.toList ++ ['.', 't', 'o', 'm', 'l'] := by
  rw [fileName, String.toList_append]
  rfl

private theorem char_fileName (member : c ∈ id.fileName.toList) :
    isSegmentChar c = true ∨ c = '.' := by
  rw [toList_fileName, List.mem_append] at member
  rcases member with inText | ending
  · exact char_of_readsAsId id.wellFormed c inText
  · simp only [List.mem_cons, List.not_mem_nil, or_false] at ending
    rcases ending with rfl | rfl | rfl | rfl | rfl <;> decide

private theorem fileName_ne_of_short (id : ModuleId) {name : String} (short : name.length < 5) :
    id.fileName ≠ name := by
  rintro rfl
  rw [← String.length_toList, toList_fileName, List.length_append] at short
  exact absurd short (by simp)

theorem isFileName (id : ModuleId) : FileTree.IsFileName id.fileName where
  named := by
    rw [toList_fileName]
    simp
  plain member := (char_fileName member).elim (absurd · (by decide)) (absurd · (by decide))
  clean member := (char_fileName member).elim (absurd · (by decide)) (absurd · (by decide))
  notDot := id.fileName_ne_of_short (by decide)
  notDots := id.fileName_ne_of_short (by decide)

theorem fileName_inj : id.fileName = other.fileName ↔ id = other := by
  rw [← text_inj, ← String.toList_inj, ← String.toList_inj, toList_fileName, toList_fileName,
    List.append_left_inj]

end ModuleId

namespace Disk

variable {disk : Disk} {id : ModuleId} {path : FilePath} {manifest : Manifest}

def Holds (disk : Disk) (path : FilePath) (manifest : Manifest) : Prop :=
  ∃ text, disk.readText path = .ok text ∧ Manifest.ofText text = .ok manifest

/-- Something is at the path, but no manifest that is of use for the module. -/
inductive Spoilt (disk : Disk) (id : ModuleId) (path : FilePath) : Prop
  | unreadable (present : disk.pathExists path = true)
      (unread : ∀ text, disk.readText path ≠ .ok text)
  | document (text : String) (read : disk.readText path = .ok text)
      (undecoded : ∀ manifest, Manifest.ofText text ≠ .ok manifest)
  | foreign (manifest : Manifest) (held : disk.Holds path manifest) (stated : String)
      (states : manifest.id = some stated) (other : stated ≠ id.text)
  | dependency (manifest : Manifest) (held : disk.Holds path manifest) (texts : List String)
      (lists : manifest.dependencies = some texts) (listed : String) (inside : listed ∈ texts)
      (invalid : ¬ IsModuleId listed)

def Obstructed (disk : Disk) (path : FilePath) : Prop := disk.tree.Obstructed disk.cwd path

private theorem readText_of_reach {failure : FileFailure}
    (failed : disk.tree.reach disk.cwd path = .error failure) :
    disk.readText path = .error failure := by
  unfold readText FileTree.readText
  rw [failed]
  rfl

theorem pathExists_iff : disk.pathExists path = true ↔
    ∃ entry, disk.tree.reach disk.cwd path = .ok entry := by
  unfold pathExists FileTree.pathExists
  cases disk.tree.reach disk.cwd path with
  | error failure => simp [Except.isOk, Except.toBool]
  | ok entry => simp [Except.isOk, Except.toBool]

private theorem pathExists_of_readText {text : String} (read : disk.readText path = .ok text) :
    disk.pathExists path = true := by
  refine pathExists_iff.2 ?_
  cases reached : disk.tree.reach disk.cwd path with
  | error failure => cases read.symm.trans (readText_of_reach reached)
  | ok entry => exact ⟨entry, rfl⟩

private theorem readText_eq_notFound : disk.readText path = .error .notFound ↔
    disk.tree.reach disk.cwd path = .error .notFound := by
  refine ⟨fun failed => ?_, readText_of_reach⟩
  unfold readText FileTree.readText at failed
  rcases Configuration.bind_eq_error.1 failed with unreached | ⟨entry, reached, unread⟩
  · exact unreached
  · cases entry with
    | directory => cases unread
    | file content =>
      dsimp only at unread
      split at unread
      · cases unread
      · cases unread

private theorem reach_eq_notFound : disk.tree.reach disk.cwd path = .error .notFound ↔
    disk.pathExists path = false ∧ ¬ disk.Obstructed path := by
  rw [← Bool.not_eq_true, pathExists_iff, Obstructed, ← FileTree.reach_obstructed]
  cases disk.tree.reach disk.cwd path with
  | error failure => simp
  | ok entry => simp

private theorem Obstructed.pathExists_eq_false (obstructed : disk.Obstructed path) :
    disk.pathExists path = false := by
  rw [← Bool.not_eq_true, pathExists_iff]
  rintro ⟨entry, reached⟩
  obtain ⟨failure, _, failed⟩ := FileTree.reach_obstructed.2 obstructed
  cases reached.symm.trans failed

private theorem Spoilt.pathExists (spoilt : disk.Spoilt id path) : disk.pathExists path = true := by
  rcases spoilt with ⟨present, _⟩ | ⟨_, read, _⟩ | ⟨_, ⟨_, read, _⟩, _⟩ | ⟨_, ⟨_, read, _⟩, _⟩
  · exact present
  all_goals exact pathExists_of_readText read

end Disk

namespace Manifest

variable {id : ModuleId}

theorem parse_eq_error {text : String} {failure : LookupFailure}
    (failed : Manifest.parse id text = .error failure) :
    ∃ reason, failure = .malformed id reason := by
  unfold Manifest.parse at failed
  split at failed
  · exact ⟨_, (Except.error.inj failed).symm⟩
  · split at failed
    · exact ⟨_, (Except.error.inj failed).symm⟩
    · cases failed

theorem declaration_eq_error {manifest : Manifest} {failure : LookupFailure}
    (failed : manifest.declaration id = .error failure) :
    ∃ invalid, failure = .malformed id (.dependency invalid) := by
  unfold Manifest.declaration at failed
  split at failed
  · cases failed
  · exact ⟨_, (Except.error.inj failed).symm⟩

end Manifest

namespace Catalog

variable {disk : Disk} {id : ModuleId} {path : FilePath} {declaration : Declaration}

/-- A manifest is missing only if its file is, and any other failure is one of the manifest. -/
theorem readManifest_eq_error {failure : LookupFailure}
    (failed : readManifest disk id path = .error failure) :
    failure = .missing id ∧ disk.readText path = .error .notFound ∨
      (∃ reason, failure = .malformed id reason) ∧ disk.readText path ≠ .error .notFound := by
  unfold readManifest at failed
  split at failed
  · rename_i absent
    exact .inl ⟨(Except.error.inj failed).symm, absent⟩
  · rename_i fault other unread
    refine .inr ⟨⟨_, (Except.error.inj failed).symm⟩, ?_⟩
    rw [unread]
    exact fun same => other (Except.error.inj same)
  · rename_i text read
    refine .inr ⟨?_, by rw [read]; exact nofun⟩
    split at failed
    · rename_i parsed
      obtain rfl := Except.error.inj failed
      exact Manifest.parse_eq_error parsed
    · obtain ⟨invalid, same⟩ := Manifest.declaration_eq_error failed
      exact ⟨_, same⟩

private theorem readManifest_eq_missing {other : ModuleId} :
    readManifest disk id path = .error (.missing other) ↔
      other = id ∧ disk.pathExists path = false ∧ ¬ disk.Obstructed path := by
  rw [← Disk.reach_eq_notFound, ← Disk.readText_eq_notFound]
  constructor
  · intro failed
    obtain ⟨same, absent⟩ | ⟨⟨_, same⟩, _⟩ := readManifest_eq_error failed
    · exact ⟨LookupFailure.missing.inj same, absent⟩
    · cases same
  · rintro ⟨rfl, absent⟩
    unfold readManifest
    rw [absent]

theorem readManifest_eq_ok_iff : readManifest disk id path = .ok declaration ↔
    ∃ manifest, disk.Holds path manifest ∧
      (manifest.id = none ∨ manifest.id = some id.text) ∧ manifest.Declares declaration := by
  simp only [readManifest_eq_ok, Manifest.parse_eq_ok, Disk.Holds]
  constructor
  · rintro ⟨text, manifest, read, ⟨decoded, own⟩, declares⟩
    exact ⟨manifest, ⟨text, read, decoded⟩, own, declares⟩
  · rintro ⟨manifest, ⟨text, read, decoded⟩, own, declares⟩
    exact ⟨text, manifest, read, ⟨decoded, own⟩, declares⟩

/-- Something that is there is of use, or it is spoilt in one of the ways listed. -/
theorem spoilt_iff : disk.Spoilt id path ↔ disk.pathExists path = true ∧
    ∀ declaration, readManifest disk id path ≠ .ok declaration := by
  simp only [ne_eq, readManifest_eq_ok_iff]
  constructor
  · intro spoilt
    refine ⟨spoilt.pathExists, ?_⟩
    rintro declaration ⟨manifest, ⟨text, read, decoded⟩, own, declares⟩
    cases spoilt with
    | unreadable _ unread => exact unread text read
    | document other readToo undecoded =>
      obtain rfl := Except.ok.inj (read.symm.trans readToo)
      exact undecoded manifest decoded
    | foreign another held stated states other =>
      obtain ⟨again, readToo, decodedToo⟩ := held
      obtain rfl := Except.ok.inj (read.symm.trans readToo)
      obtain rfl := Except.ok.inj (decoded.symm.trans decodedToo)
      rcases own with none | same
      · cases none.symm.trans states
      · exact other (Option.some.inj (states.symm.trans same))
    | dependency another held texts lists listed inside invalid =>
      obtain ⟨again, readToo, decodedToo⟩ := held
      obtain rfl := Except.ok.inj (read.symm.trans readToo)
      obtain rfl := Except.ok.inj (decoded.symm.trans decodedToo)
      exact invalid (Manifest.exists_declares.1 ⟨declaration, declares⟩ texts lists listed inside)
  · rintro ⟨present, useless⟩
    by_contra sound
    -- Whatever is not spoilt passes one stage of reading after the other.
    obtain ⟨text, read⟩ : ∃ text, disk.readText path = .ok text := by
      by_contra unread
      exact sound (.unreadable present (not_exists.1 unread))
    obtain ⟨manifest, decoded⟩ : ∃ manifest, Manifest.ofText text = .ok manifest := by
      by_contra undecoded
      exact sound (.document text read (not_exists.1 undecoded))
    have held : disk.Holds path manifest := ⟨text, read, decoded⟩
    have own : manifest.id = none ∨ manifest.id = some id.text := by
      cases states : manifest.id with
      | none => exact .inl rfl
      | some stated =>
        by_contra other
        refine sound (.foreign manifest held stated states fun same => other (.inr ?_))
        rw [same]
    obtain ⟨declaration, declares⟩ : ∃ declaration, manifest.Declares declaration := by
      refine Manifest.exists_declares.2 fun texts lists listed inside => ?_
      by_contra invalid
      exact sound (.dependency manifest held texts lists listed inside invalid)
    exact useless declaration ⟨manifest, held, own, declares⟩

private theorem readManifest_eq_malformed {other : ModuleId} :
    (∃ reason, readManifest disk id path = .error (.malformed other reason)) ↔
      other = id ∧ (disk.Spoilt id path ∨ disk.Obstructed path) := by
  rw [spoilt_iff]
  constructor
  · rintro ⟨reason, failed⟩
    obtain ⟨same, _⟩ | ⟨⟨_, same⟩, notAbsent⟩ := readManifest_eq_error failed
    · cases same
    · obtain ⟨rfl, rfl⟩ := LookupFailure.malformed.inj same
      refine ⟨rfl, or_iff_not_imp_right.2 fun free => ⟨?_, fun declaration usable => ?_⟩⟩
      · rw [ne_eq, Disk.readText_eq_notFound, Disk.reach_eq_notFound] at notAbsent
        exact Bool.not_eq_false _ ▸ fun absent => notAbsent ⟨absent, free⟩
      · cases failed.symm.trans usable
  · rintro ⟨rfl, defect⟩
    cases answered : readManifest disk other path with
    | ok declaration =>
      obtain ⟨_, ⟨_, read, _⟩, _⟩ := readManifest_eq_ok_iff.1 answered
      rcases defect with ⟨_, useless⟩ | obstructed
      · exact absurd answered (useless declaration)
      · cases obstructed.pathExists_eq_false.symm.trans (Disk.pathExists_of_readText read)
    | error failure =>
      obtain ⟨rfl, _⟩ | ⟨⟨reason, rfl⟩, _⟩ := readManifest_eq_error answered
      · obtain ⟨_, absent, free⟩ := readManifest_eq_missing.1 answered
        rcases defect with ⟨present, _⟩ | obstructed
        · cases absent.symm.trans present
        · exact absurd obstructed free
      · exact ⟨reason, rfl⟩

/-- The answer for a module, told from what is at the path of its manifest file, if it has one. -/
structure Classified (disk : Disk) (id : ModuleId) (path? : Option FilePath)
    (answer : Except LookupFailure Declaration) : Prop where
  missing : answer = .error (.missing id) ↔
    ∀ path ∈ path?, disk.pathExists path = false ∧ ¬ disk.Obstructed path
  malformed : (∃ reason, answer = .error (.malformed id reason)) ↔
    ∃ path ∈ path?, disk.Spoilt id path ∨ disk.Obstructed path
  silent : answer = .ok .none ↔ ∃ path ∈ path?, ∃ manifest, disk.Holds path manifest ∧
    (manifest.id = none ∨ manifest.id = some id.text) ∧ manifest.dependencies = none
  lists (set : ModuleSet) : answer = .ok (.fixed set) ↔ ∃ path ∈ path?, ∃ manifest texts,
    disk.Holds path manifest ∧ (manifest.id = none ∨ manifest.id = some id.text) ∧
      manifest.dependencies = some texts ∧ Lists texts set
  complete : answer = .error (.missing id) ∨ (∃ reason, answer = .error (.malformed id reason)) ∨
    answer = .ok .none ∨ ∃ set, answer = .ok (.fixed set)

private theorem classified_none : Classified disk id none (.error (.missing id)) where
  missing := by simp
  malformed := by simp
  silent := by simp
  lists := by simp
  complete := .inl rfl

private theorem classified_some : Classified disk id (some path) (readManifest disk id path) where
  missing := by simp [readManifest_eq_missing]
  malformed := by simp [readManifest_eq_malformed]
  silent := by simp [readManifest_eq_ok_iff, Manifest.Declares]
  lists set := by
    simp only [readManifest_eq_ok_iff, Manifest.Declares, Option.mem_some_iff, exists_eq_left']
    constructor
    · rintro ⟨manifest, held, own, texts, given, lists⟩
      exact ⟨manifest, texts, held, own, given, lists⟩
    · rintro ⟨manifest, texts, held, own, given, lists⟩
      exact ⟨manifest, held, own, texts, given, lists⟩
  complete := by
    cases answered : readManifest disk id path with
    | ok declaration =>
      obtain ⟨_, _, _, declares⟩ := readManifest_eq_ok_iff.1 answered
      cases declaration with
      | none => exact .inr (.inr (.inl rfl))
      | fixed set => exact .inr (.inr (.inr ⟨set, rfl⟩))
      | query _ => exact declares.elim
    | error failure =>
      obtain ⟨rfl, _⟩ | ⟨⟨reason, rfl⟩, _⟩ := readManifest_eq_error answered
      · exact .inl rfl
      · exact .inr (.inl ⟨reason, rfl⟩)

/-- Every answer for a module that nothing was stated about falls into one of four classes. Where
the manifest directory is there, or nothing in its place, and the names are not too long, a module
is missing exactly if it has no file, and its manifest malformed only if there is one. It is called
malformed without being there for every module if a file stands in the place of the directory, and
in a directory for every module whose file would have too long a name. -/
theorem declaration_classified (catalog : Catalog) (disk : Disk) (id : ModuleId)
    (unstated : catalog.stated.find? id = none) :
    let answer := (catalog.declaration disk id).value
    Classified disk id (catalog.manifestPath? id) answer ∧
    ∀ directory ∈ catalog.directory, ∀ path ∈ catalog.manifestPath? id,
      let found := disk.tree.reach disk.cwd directory
      (found = .ok .directory ∨ found = .error .notFound →
        id.fileName.utf8ByteSize ≤ FileTree.longestName →
        path.text.utf8ByteSize ≤ FileTree.longestPath →
        (answer = .error (.missing id) ↔ disk.pathExists path = false) ∧
        ((∃ reason, answer = .error (.malformed id reason)) ↔ disk.Spoilt id path)) ∧
      ((∃ content, found = .ok (.file content)) ∨
          found = .ok .directory ∧ FileTree.longestName < id.fileName.utf8ByteSize →
        disk.pathExists path = false ∧ ∃ reason, answer = .error (.malformed id reason)) := by
  intro answer
  have classified : Classified disk id (catalog.manifestPath? id) answer := by
    simp only [answer, declaration, unstated]
    cases catalog.manifestPath? id with
    | none => exact classified_none
    | some path => exact classified_some
  refine ⟨classified, fun directory chosen path there => ?_⟩
  intro found
  obtain rfl : directory.beneath id.fileName = path := by
    rw [manifestPath?, Option.mem_def.1 chosen] at there
    exact Option.some.inj there
  refine ⟨fun reached short fits => ?_, fun barred => ?_⟩
  · have free : ¬ disk.Obstructed (directory.beneath id.fileName) :=
      FileTree.not_obstructed_beneath reached id.isFileName short fits
    rw [classified.missing, classified.malformed, Option.mem_def.1 there]
    simp [free]
  · have obstructed : disk.Obstructed (directory.beneath id.fileName) := by
      rcases barred with ⟨content, file⟩ | ⟨present, long⟩
      · exact FileTree.obstructed_of_file file id.isFileName
      · exact FileTree.obstructed_of_long present id.isFileName long
    exact ⟨obstructed.pathExists_eq_false, classified.malformed.2 ⟨_, there, .inr obstructed⟩⟩

def shelf : Disk :=
  ⟨((∅ : FileTree).put ["m"] .directory).put ["m", "ext.a.toml"]
    (.file "id = \"ext.b\"\n".toUTF8), []⟩

theorem declaration_classified_shelf :
    (inDirectory ⟨"m"⟩).stated.find? Resolver.extA = none ∧
      (∃ reason, ((inDirectory ⟨"m"⟩).declaration shelf Resolver.extA).value =
        .error (.malformed Resolver.extA reason)) ∧
      (inDirectory ⟨"m"⟩).stated.find? Resolver.extB = none ∧
      ((inDirectory ⟨"m"⟩).declaration shelf Resolver.extB).value =
        .error (.missing Resolver.extB) := by
  obtain ⟨_, first⟩ := declaration_classified (inDirectory ⟨"m"⟩) shelf Resolver.extA rfl
  obtain ⟨_, second⟩ := declaration_classified (inDirectory ⟨"m"⟩) shelf Resolver.extB rfl
  have there : shelf.tree.reach shelf.cwd ⟨"m"⟩ = .ok .directory := by rfl
  have spoilt : shelf.Spoilt Resolver.extA ⟨"m/ext.a.toml"⟩ :=
    .foreign ⟨some "ext.b", none, none⟩ ⟨"id = \"ext.b\"\n", by rfl, by decide +kernel⟩ "ext.b"
      rfl (by decide)
  obtain ⟨ordinary, _⟩ := first ⟨"m"⟩ rfl ⟨"m/ext.a.toml"⟩ rfl
  obtain ⟨_, malformed⟩ := ordinary (.inl there) (by decide) (by decide)
  obtain ⟨ordinaryToo, _⟩ := second ⟨"m"⟩ rfl ⟨"m/ext.b.toml"⟩ rfl
  obtain ⟨missing, _⟩ := ordinaryToo (.inl there) (by decide) (by decide)
  exact ⟨rfl, malformed.2 spoilt, rfl, missing.2 (by rfl)⟩

def misplaced : Disk := ⟨(∅ : FileTree).put ["m"] (.file "x".toUTF8), []⟩

/-- Nothing is at the path of the manifest file, and it is called malformed all the same. -/
theorem absent_called_malformed :
    (inDirectory ⟨"m"⟩).stated.find? Resolver.extA = none ∧
      (inDirectory ⟨"m"⟩).manifestPath? Resolver.extA = some ⟨"m/ext.a.toml"⟩ ∧
      misplaced.pathExists ⟨"m/ext.a.toml"⟩ = false ∧
      ((inDirectory ⟨"m"⟩).declaration misplaced Resolver.extA).value =
        .error (.malformed Resolver.extA (.unreadable ⟨"m/ext.a.toml"⟩ .notDirectory)) :=
  ⟨rfl, rfl, rfl, rfl⟩

end Catalog
end BundlePlan
