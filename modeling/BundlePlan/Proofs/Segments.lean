import BundlePlan.Proofs.Checks
import BundlePlan.Proofs.Pieces
import Mathlib.Order.Defs.Unbundled

/-! Identifiers as lists of segments. A text is an identifier if all its pieces between the dots are
segments; a child has the segments of its name behind those of its parent, and one identifier lies
within another if it begins with the segments of that. So what lies within what is a tree. -/
namespace BundlePlan

/-- One or more ASCII letters, digits, underscores and hyphens. -/
def IsSegment (piece : String) : Prop :=
  piece ≠ "" ∧ ∀ c ∈ piece.toList,
    ('a' ≤ c ∧ c ≤ 'z') ∨ ('A' ≤ c ∧ c ≤ 'Z') ∨ ('0' ≤ c ∧ c ≤ '9') ∨ c = '_' ∨ c = '-'

def dotted (text : String) : List String := piecesBy '.' text

theorem isSegmentChar_iff {c : Char} : isSegmentChar c = true ↔
    ('a' ≤ c ∧ c ≤ 'z') ∨ ('A' ≤ c ∧ c ≤ 'Z') ∨ ('0' ≤ c ∧ c ≤ '9') ∨ c = '_' ∨ c = '-' := by
  unfold isSegmentChar Char.isAlphanum Char.isAlpha Char.isUpper Char.isLower Char.isDigit
  simp only [Bool.or_eq_true, Bool.and_eq_true, decide_eq_true_eq, beq_iff_eq, or_assoc]
  exact or_left_comm

private theorem ascii_of_isSegmentChar {c : Char} (segment : isSegmentChar c = true) :
    c.toNat < 128 ∧ c.isWhitespace = false := by
  constructor
  · have ranges := isSegmentChar_iff.1 segment
    simp only [Char.le_def, UInt32.le_iff_toNat_le] at ranges
    change c.val.toNat < 128
    rcases ranges with lower | upper | digit | rfl | rfl
    · exact Nat.lt_of_le_of_lt lower.2 (by decide)
    · exact Nat.lt_of_le_of_lt upper.2 (by decide)
    · exact Nat.lt_of_le_of_lt digit.2 (by decide)
    · decide
    · decide
  · rw [← Bool.not_eq_true]
    intro blank
    simp only [Char.isWhitespace, Bool.or_eq_true, decide_eq_true_eq] at blank
    rcases blank with ((rfl | rfl) | rfl) | rfl <;> exact absurd segment (by decide)

private theorem isSegment_ofList {piece : List Char} : IsSegment (String.ofList piece) ↔
    piece ≠ [] ∧ ∀ c ∈ piece, isSegmentChar c = true := by
  simp only [IsSegment, isSegmentChar_iff, String.toList_ofList, ne_eq, ← String.toList_eq_nil_iff]

/-- The first piece counts as begun where a character of it has been read before. -/
theorem readsAsId_iff {inside : Bool} {cs first : List Char} {others : List (List Char)}
    (split : cs.splitOn '.' = first :: others) : readsAsId inside cs = true ↔
      (inside = true ∨ first ≠ []) ∧ (∀ c ∈ first, isSegmentChar c = true) ∧
        ∀ piece ∈ others, piece ≠ [] ∧ ∀ c ∈ piece, isSegmentChar c = true := by
  induction cs generalizing inside first others with
  | nil =>
    obtain ⟨rfl, rfl⟩ := List.cons.inj split
    simp [readsAsId]
  | cons c rest ih =>
    obtain ⟨next, more, splitRest⟩ := List.exists_cons_of_ne_nil (List.splitOn_ne_nil '.' rest)
    rw [List.splitOn_cons_eq_if_modifyHead, splitRest] at split
    by_cases dot : c = '.'
    · subst dot
      obtain ⟨rfl, rfl⟩ := List.cons.inj split
      have read : readsAsId inside ('.' :: rest) = (inside && readsAsId false rest) := by
        simp [readsAsId, isSegmentChar]
      simp [read, ih splitRest, and_assoc]
    · rw [if_neg (by simpa using dot), List.modifyHead_cons] at split
      obtain ⟨rfl, rfl⟩ := List.cons.inj split
      by_cases segment : isSegmentChar c = true
      · simp [readsAsId, segment, ih splitRest]
      · simp [readsAsId, segment, dot]

private theorem readsAsId_iff_dotted {text : String} :
    readsAsId false text.toList = true ↔ ∀ piece ∈ dotted text, IsSegment piece := by
  obtain ⟨first, others, split⟩ := List.exists_cons_of_ne_nil (List.splitOn_ne_nil '.' text.toList)
  rw [readsAsId_iff split, dotted, piecesBy, split]
  simp [isSegment_ofList, and_assoc]

private theorem dotted_ne_nil (text : String) : dotted text ≠ [] := by
  simp [dotted, piecesBy]

private theorem intercalate_dotted (text : String) : ".".intercalate (dotted text) = text :=
  intercalate_piecesBy '.' text

private theorem dotted_append (text rest : String) :
    dotted (text ++ "." ++ rest) = dotted text ++ dotted rest := by
  have whole : (text ++ "." ++ rest).toList = text.toList ++ '.' :: rest.toList := by simp
  rw [dotted, piecesBy, whole, List.splitOn_append_cons_self, List.map_append]
  rfl

namespace ModuleId

variable {id a b inner outer : ModuleId} {text name : String}

private theorem segments_eq (id : ModuleId) : id.segments = dotted id.text := rfl

private theorem segments_ne_nil (id : ModuleId) : id.segments ≠ [] := dotted_ne_nil id.text

private theorem intercalate_segments (id : ModuleId) : ".".intercalate id.segments = id.text :=
  intercalate_dotted id.text

theorem segments_inj : a.segments = b.segments ↔ a = b := by
  refine ⟨fun same => ?_, congrArg _⟩
  rw [← text_inj, ← intercalate_segments a, ← intercalate_segments b, same]

theorem isModuleId_iff : IsModuleId text ↔ ∀ piece ∈ dotted text, IsSegment piece := by
  rw [← readsAsId_iff_dotted]
  constructor
  · rintro ⟨id, rfl⟩
    exact id.wellFormed
  · intro wellFormed
    exact ⟨⟨text, wellFormed⟩, rfl⟩

private theorem isModuleId_child : IsModuleId (a.text ++ "." ++ name) ↔ IsModuleId name := by
  have own : ∀ piece ∈ dotted a.text, IsSegment piece := isModuleId_iff.1 ⟨a, rfl⟩
  rw [isModuleId_iff, isModuleId_iff, dotted_append, List.forall_mem_append]
  exact and_iff_right own

theorem child_eq_ok : a.child name = .ok b ↔ b.text = a.text ++ "." ++ name := parse_eq_ok

private theorem segments_child (made : a.child name = .ok b) :
    b.segments = a.segments ++ dotted name := by
  rw [segments_eq, child_eq_ok.1 made, dotted_append]
  rfl

private theorem isWithin_iff_segments :
    inner.isWithin outer = true ↔ outer.segments <+: inner.segments := by
  rw [isWithin_iff]
  constructor
  · rintro ⟨rest, whole, next⟩
    cases rest with
    | nil =>
      rw [List.append_nil, String.toList_inj, text_inj] at whole
      exact whole ▸ List.prefix_rfl
    | cons c others =>
      obtain rfl := next c rfl
      have split : inner.text = outer.text ++ "." ++ String.ofList others := by
        rw [← String.toList_inj, ← whole]
        simp
      rw [segments_eq, segments_eq, split, dotted_append]
      exact List.prefix_append _ _
  · rintro ⟨more, split⟩
    have texts : inner.text = ".".intercalate (outer.segments ++ more) := by
      rw [split, intercalate_segments]
    by_cases none : more = []
    · rw [none, List.append_nil, intercalate_segments] at texts
      exact ⟨[], by simp [texts], nofun⟩
    · rw [String.intercalate_append_of_ne_nil (segments_ne_nil outer) none,
        intercalate_segments] at texts
      exact ⟨'.' :: (".".intercalate more).toList, by simp [texts], by simp⟩

private theorem isWithin_antisymm (below : a.isWithin b = true) (above : b.isWithin a = true) :
    a = b := by
  have first := isWithin_iff_segments.1 below
  have second := isWithin_iff_segments.1 above
  have length : a.segments.length = b.segments.length :=
    Nat.le_antisymm second.length_le first.length_le
  exact segments_inj.1 (second.eq_of_length length)

instance : IsPartialOrder ModuleId fun inner outer => inner.isWithin outer = true where
  refl := isWithin_refl
  trans _ _ _ := isWithin_trans
  antisymm _ _ := isWithin_antisymm

/-- An identifier that lies within two others shows which of them lies within the other. -/
theorem isWithin_total (first : id.isWithin a = true) (second : id.isWithin b = true) :
    a.isWithin b = true ∨ b.isWithin a = true := by
  rw [isWithin_iff_segments, isWithin_iff_segments]
  exact List.prefix_or_prefix_of_prefix (isWithin_iff_segments.1 second)
    (isWithin_iff_segments.1 first)

theorem isWithin_child (made : a.child name = .ok b) : b.isWithin a = true := by
  rw [isWithin_iff_segments, segments_child made]
  exact List.prefix_append _ _

theorem decode_eq_ok {ε : Type} {read : Except ε String} :
    decode read = .ok id ↔ ∃ text, read = .ok text ∧ parse text = .ok id := by
  unfold decode
  cases read with
  | error fault => simp
  | ok text =>
    cases read : parse text with
    | error invalid => simp [read]
    | ok other => simp [read]

/-- All characters of an identifier are ASCII, and none is a blank. -/
theorem ascii_of_isModuleId (valid : IsModuleId text) :
    ∀ c ∈ text.toList, c.toNat < 128 ∧ c.isWhitespace = false := by
  obtain ⟨id, rfl⟩ := valid
  intro c member
  rcases char_of_readsAsId id.wellFormed c member with segment | rfl
  · exact ascii_of_isSegmentChar segment
  · decide

/-- A text is an identifier exactly if all its pieces between the dots are segments, which then are
the segments of the identifier; it makes no difference whether the text stands alone, in a document
or behind a parent. Lying within another identifier is beginning with its segments, and orders the
identifiers as a tree. -/
theorem parse_segmentwise :
    (∀ text, ((∃ id, parse text = .ok id) ↔ ∀ piece ∈ dotted text, IsSegment piece) ∧
      ∀ id, parse text = .ok id → id.segments = dotted text ∧
        ".".intercalate id.segments = text ∧
        ∀ c ∈ text.toList, c.toNat < 128 ∧ c.isWhitespace = false) ∧
    (∀ (ε : Type) (read : Except ε String) id,
      decode read = .ok id ↔ ∃ text, read = .ok text ∧ parse text = .ok id) ∧
    (∀ (parent : ModuleId) name,
      ((∃ child, parent.child name = .ok child) ↔ ∃ id, parse name = .ok id) ∧
      ∀ child id, parent.child name = .ok child → parse name = .ok id →
        child.segments = parent.segments ++ id.segments ∧ child.isWithin parent = true) ∧
    (∀ inner outer : ModuleId,
      inner.isWithin outer = true ↔ outer.segments <+: inner.segments) ∧
    IsPartialOrder ModuleId (fun inner outer => inner.isWithin outer = true) ∧
    ∀ id a b : ModuleId, id.isWithin a = true → id.isWithin b = true →
      a.isWithin b = true ∨ b.isWithin a = true := by
  have valid (text : String) : (∃ id, parse text = .ok id) ↔ IsModuleId text :=
    exists_congr fun _ => parse_eq_ok
  refine ⟨fun text => ⟨(valid text).trans isModuleId_iff, fun id parsed => ?_⟩,
    fun _ _ _ => decode_eq_ok, fun parent name => ⟨?_, fun child id made parsed => ?_⟩,
    fun _ _ => isWithin_iff_segments, inferInstance, fun _ _ _ => isWithin_total⟩
  · obtain rfl := parse_eq_ok.1 parsed
    exact ⟨rfl, intercalate_segments id, ascii_of_isModuleId ⟨id, rfl⟩⟩
  · rw [valid, ← isModuleId_child]
    exact valid _
  · obtain rfl := parse_eq_ok.1 parsed
    exact ⟨segments_child made, isWithin_child made⟩

/-- A name with dots of its own makes a child of several segments. -/
theorem parse_segmentwise_extension : ∃ parent child id, parse "server.ext" = .ok parent ∧
    parent.child "net.gps" = .ok child ∧ parse "net.gps" = .ok id ∧
    child.segments = parent.segments ++ id.segments ∧ child.isWithin parent = true := by
  obtain ⟨_, _, children, _⟩ := parse_segmentwise
  have outer : parse "server.ext" = .ok ⟨"server.ext", by decide⟩ := rfl
  have inner : parse "net.gps" = .ok ⟨"net.gps", by decide⟩ := rfl
  obtain ⟨child, made⟩ := (children ⟨"server.ext", by decide⟩ "net.gps").1.2 ⟨_, inner⟩
  exact ⟨_, child, _, outer, made, inner, (children _ _).2 child _ made inner⟩

end ModuleId
end BundlePlan
