/-! What stands between the separators in a text. A text falls into pieces without separators, and
pieces without separators are what their text falls into. -/
namespace BundlePlan

/-- What stands between the separators in a text. -/
def piecesBy (separator : Char) (text : String) : List String :=
  (text.toList.splitOn separator).map String.ofList

theorem intercalate_piecesBy (separator : Char) (text : String) :
    (String.singleton separator).intercalate (piecesBy separator text) = text := by
  have pieces : (piecesBy separator text).map String.toList = text.toList.splitOn separator := by
    simp [piecesBy]
  rw [← String.toList_inj, String.toList_intercalate, pieces, String.toList_singleton]
  exact List.intercalate_splitOn separator

theorem piecesBy_intercalate {separator : Char} {pieces : List String} (some : pieces ≠ [])
    (apart : ∀ piece ∈ pieces, separator ∉ piece.toList) :
    piecesBy separator ((String.singleton separator).intercalate pieces) = pieces := by
  have lists : ∀ piece ∈ pieces.map String.toList, separator ∉ piece :=
    List.forall_mem_map.2 apart
  rw [piecesBy, String.toList_intercalate, String.toList_singleton,
    List.splitOn_intercalate separator lists (mt List.map_eq_nil_iff.1 some)]
  simp

theorem not_mem_intercalate {c : Char} {separator : List Char} {texts : List (List Char)}
    (between : c ∉ separator) (inside : ∀ text ∈ texts, c ∉ text) :
    c ∉ separator.intercalate texts := by
  induction texts with
  | nil => exact List.not_mem_nil
  | cons text rest ih =>
    obtain ⟨here, later⟩ := List.forall_mem_cons.1 inside
    cases rest with
    | nil => rwa [List.intercalate_singleton]
    | cons next others =>
      rw [List.intercalate_cons_cons, List.mem_append, List.mem_append, not_or, not_or]
      exact ⟨⟨here, between⟩, ih later⟩

theorem not_mem_of_mem_splitOn {separator : Char} {cs piece : List Char}
    (member : piece ∈ cs.splitOn separator) : separator ∉ piece := by
  induction cs generalizing piece with
  | nil =>
    rw [List.splitOn_nil, List.mem_singleton] at member
    simp [member]
  | cons c rest ih =>
    rw [List.splitOn, List.splitOnP_cons_eq_if_modifyHead] at member
    split at member
    · rcases List.mem_cons.1 member with rfl | later
      · exact List.not_mem_nil
      · exact ih later
    · rename_i other
      -- A character that does not separate goes in front of the first piece of the rest.
      obtain ⟨first, others, split⟩ :=
        List.exists_cons_of_ne_nil (List.splitOnP_ne_nil (· == separator) rest)
      have tail : rest.splitOn separator = first :: others := split
      rw [split, List.modifyHead_cons] at member
      rcases List.mem_cons.1 member with rfl | later
      · rw [List.mem_cons, not_or]
        exact ⟨fun same => other (beq_iff_eq.2 same.symm), ih (tail ▸ List.mem_cons_self)⟩
      · exact ih (tail ▸ List.mem_cons_of_mem first later)

end BundlePlan
