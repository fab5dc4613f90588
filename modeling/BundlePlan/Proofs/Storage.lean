import BundlePlan.Proofs.Commands
import BundlePlan.Proofs.Places

/-! Storing texts in files. What is stored under one path is read back under every path that leads
to the same place, and whatever is read at other places stays what it is. -/
namespace BundlePlan

namespace FileTree

variable {tree middle later : FileTree} {cwd location other : Location} {path : FilePath}
  {entry : Entry} {content : String}

theorem find_put (tree : FileTree) (entry : Entry) (given : location ≠ []) (other : Location) :
    entry? (tree.put location entry) other =
      if other = location then some entry else tree.entry? other := by
  unfold entry? put
  rw [Dictionary.find?_insert]
  by_cases root : other = []
  · rw [if_pos root, if_pos root, if_neg fun same => given (same.symm.trans root)]
  · rw [if_neg root, if_neg root]
    simp only [eq_comm]

theorem grows_put_file (free : tree.entry? location ≠ some .directory) (given : location ≠ [])
    (content : ByteArray) : tree.Grows (tree.put location (.file content)) := by
  intro other there
  rw [find_put _ _ given, if_neg, there]
  rintro rfl
  exact free there

/-- Whatever is there stays what it is. -/
def Keeps (tree later : FileTree) : Prop :=
  ∀ location entry, tree.entry? location = some entry → later.entry? location = some entry

private theorem Keeps.refl (tree : FileTree) : tree.Keeps tree := fun _ _ there => there

private theorem Keeps.trans (first : tree.Keeps middle) (second : middle.Keeps later) :
    tree.Keeps later :=
  fun location entry there => second location entry (first location entry there)

theorem Keeps.grows (keeps : tree.Keeps later) : tree.Grows later :=
  fun location there => keeps location .directory there

theorem createDirectory_keeps (created : tree.createDirectory cwd path = .ok later) :
    tree.Keeps later := by
  obtain ⟨target, _, outcome⟩ := Configuration.bind_eq_ok.1 created
  cases target with
  | standing directory => cases outcome
  | named directory name slash =>
    dsimp only at outcome
    split at outcome
    · cases outcome
    · split at outcome
      · cases outcome
      · rename_i absent
        obtain rfl := Except.ok.inj outcome
        intro location entry there
        rw [find_put _ _ (by simp), if_neg, there]
        rintro rfl
        rw [absent] at there
        cases there

theorem ensureDirectories_keeps (tree : FileTree) (cwd : Location) (directories : List FilePath) :
    tree.Keeps (tree.ensureDirectories cwd directories).1 := by
  induction directories with
  | nil => exact .refl tree
  | cons path outer ih =>
    unfold ensureDirectories
    dsimp only
    split
    · rename_i attempt
      exact createDirectory_keeps attempt
    · split
      · rename_i nested
        rw [nested] at ih
        exact ih
      · rename_i nested
        rw [nested] at ih
        split
        · rename_i again
          exact ih.trans (createDirectory_keeps again)
        · exact ih
    · exact .refl tree

theorem writeText_eq_ok : tree.writeText cwd path content = .ok later ↔
    ∃ directory name, tree.locate cwd path = .ok (.named directory name false) ∧
      name.utf8ByteSize ≤ longestName ∧ tree.entry? (directory ++ [name]) ≠ some .directory ∧
      later = tree.put (directory ++ [name]) (.file content.toUTF8) := by
  unfold writeText
  rw [Configuration.bind_eq_ok]
  constructor
  · rintro ⟨target, found, outcome⟩
    cases target with
    | standing directory => cases outcome
    | named directory name slash =>
      cases slash with
      | true => cases outcome
      | false =>
        dsimp only at outcome
        rw [if_neg Bool.false_ne_true] at outcome
        split at outcome
        · cases outcome
        · rename_i short
          split at outcome
          · cases outcome
          · rename_i free
            exact ⟨directory, name, found, Nat.not_lt.1 short, free, (Except.ok.inj outcome).symm⟩
  · rintro ⟨directory, name, found, short, free, rfl⟩
    refine ⟨_, found, ?_⟩
    dsimp only
    rw [if_neg Bool.false_ne_true, if_neg (Nat.not_lt.2 short)]
    split
    · rename_i there
      exact absurd there free
    · rfl

theorem fromUTF8?_eq_some {bytes : ByteArray} :
    String.fromUTF8? bytes = some content ↔ bytes = content.toUTF8 := by
  unfold String.fromUTF8?
  constructor
  · intro read
    split at read
    · rw [← Option.some.inj read]
      rfl
    · cases read
  · rintro rfl
    rw [String.toUTF8_eq_toByteArray, dif_pos content.isValidUTF8]
    rfl

theorem readText_eq_ok : tree.readText cwd path = .ok content ↔
    ∃ directory name, tree.locate cwd path = .ok (.named directory name false) ∧
      name.utf8ByteSize ≤ longestName ∧
      tree.entry? (directory ++ [name]) = some (.file content.toUTF8) := by
  unfold readText reach
  simp only [Configuration.bind_eq_ok]
  constructor
  · rintro ⟨entry, ⟨target, found, reached⟩, outcome⟩
    cases target with
    | standing directory =>
      cases reached
      cases outcome
    | named directory name slash =>
      dsimp only at reached
      split at reached
      · cases reached
      · rename_i short
        split at reached
        · cases reached
        · cases reached
          cases outcome
        · rename_i bytes there
          split at reached
          · cases reached
          · rename_i ends
            cases reached
            dsimp only at outcome
            split at outcome
            · rename_i text decoded
              obtain rfl := Except.ok.inj outcome
              rw [fromUTF8?_eq_some.1 decoded] at there
              rw [Bool.not_eq_true] at ends
              rw [ends] at found
              exact ⟨directory, name, found, Nat.not_lt.1 short, there⟩
            · cases outcome
  · rintro ⟨directory, name, found, short, there⟩
    refine ⟨.file content.toUTF8, ⟨_, found, ?_⟩, ?_⟩
    · dsimp only
      rw [if_neg (Nat.not_lt.2 short), there]
      rfl
    · dsimp only
      rw [fromUTF8?_eq_some.2 rfl]
      rfl

end FileTree
end BundlePlan
