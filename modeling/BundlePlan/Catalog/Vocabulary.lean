import BundlePlan.Catalog

/-! A catalog over a finite tree of files can bring up finitely many identifiers only: those in
the declarations in memory and those in files that read as manifests. -/
namespace BundlePlan

def Entry.manifestDependencies : Entry → List ModuleId
  | .directory => []
  | .file content =>
    match String.fromUTF8? content with
    | none => []
    | some text =>
      match Manifest.ofText text with
      | .error _ => []
      | .ok manifest =>
        match manifest.declared with
        | .error _ => []
        | .ok declaration => declaration.dependencies.toList

theorem FileTree.mem_of_entry? {tree : FileTree} {location : Location} {content : ByteArray}
    (found : tree.entry? location = some (.file content)) :
    .file content ∈ tree.entries.entries.map Prod.snd := by
  simp only [FileTree.entry?] at found
  split at found
  · cases found
  · obtain ⟨entry, held, same⟩ := Option.map_eq_some_iff.1 found
    exact List.mem_map.2 ⟨entry, List.mem_of_find?_eq_some held, same⟩

theorem FileTree.mem_of_reach {tree : FileTree} {cwd : Location} {path : FilePath}
    {content : ByteArray} (reached : tree.reach cwd path = .ok (.file content)) :
    .file content ∈ tree.entries.entries.map Prod.snd := by
  simp only [FileTree.reach, bind, Except.bind] at reached
  split at reached
  · contradiction
  · split at reached
    · cases reached
    · split at reached
      · contradiction
      · split at reached
        · contradiction
        · cases reached
        · split at reached
          · contradiction
          · cases reached
            exact mem_of_entry? ‹_›

theorem Disk.manifestDependencies_of_readText {disk : Disk} {path : FilePath} {text : String}
    (read : disk.readText path = .ok text) :
    ∃ entry ∈ disk.tree.entries.entries.map Prod.snd, ∀ manifest declaration,
      Manifest.ofText text = .ok manifest → manifest.declared = .ok declaration →
        entry.manifestDependencies = declaration.dependencies.toList := by
  simp only [Disk.readText, FileTree.readText, bind, Except.bind] at read
  split at read
  · contradiction
  · rename_i entry reached
    cases entry with
    | directory => contradiction
    | file content =>
      dsimp only at read
      split at read
      · rename_i decoded
        cases read
        refine ⟨.file content, FileTree.mem_of_reach reached, ?_⟩
        intro manifest declaration parsed valid
        simp [Entry.manifestDependencies, decoded, parsed, valid]
      · contradiction

namespace Catalog

def vocabulary (catalog : Catalog) (disk : Disk) : List ModuleId :=
  (catalog.stated.entries.flatMap fun entry =>
    match entry.2 with
    | .ok declaration => declaration.dependencies.toList
    | .error _ => []) ++
  (disk.tree.entries.entries.map Prod.snd).flatMap Entry.manifestDependencies

theorem mem_vocabulary_of_readManifest {catalog : Catalog} {disk : Disk} {id dependency : ModuleId}
    {path : FilePath} {declaration : Declaration}
    (read : readManifest disk id path = .ok declaration)
    (needed : dependency ∈ declaration.dependencies) : dependency ∈ catalog.vocabulary disk := by
  simp only [readManifest] at read
  split at read
  · contradiction
  · contradiction
  · rename_i text held
    obtain ⟨entry, inside, listed⟩ := Disk.manifestDependencies_of_readText held
    split at read
    · contradiction
    · rename_i manifest parsed
      have byText : Manifest.ofText text = .ok manifest := by
        simp only [Manifest.parse] at parsed
        split at parsed
        · contradiction
        · split at parsed
          · contradiction
          · cases parsed; assumption
      have valid : manifest.declared = .ok declaration := by
        simp only [Manifest.declaration] at read
        split at read
        · cases read; assumption
        · contradiction
      refine List.mem_append_right _ (List.mem_flatMap.2 ⟨entry, inside, ?_⟩)
      rw [listed manifest declaration byText valid]
      exact needed

/-- What a lookup names is in the vocabulary. -/
theorem mem_vocabulary {catalog : Catalog} {disk : Disk} {id dependency : ModuleId}
    {declaration : Declaration} (found : (catalog.declaration disk id).value = .ok declaration)
    (needed : dependency ∈ declaration.dependencies) : dependency ∈ catalog.vocabulary disk := by
  simp only [Catalog.declaration] at found
  split at found
  · rename_i held
    cases found
    obtain ⟨entry, member, same⟩ := Option.map_eq_some_iff.1 held
    refine List.mem_append_left _ (List.mem_flatMap.2 ⟨entry, List.mem_of_find?_eq_some member, ?_⟩)
    rw [same]
    exact needed
  · cases found
  · split at found
    · cases found
    · exact mem_vocabulary_of_readManifest found needed

end Catalog
end BundlePlan
