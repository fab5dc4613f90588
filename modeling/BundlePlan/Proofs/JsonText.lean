import BundlePlan.Descriptor.Render
import BundlePlan.Proofs.JsonGrammar
import Mathlib.Data.List.Forall2
import Mathlib.Data.Prod.Basic

/-! Descriptors as JSON. Whoever reads the text of a descriptor by the grammar finds its fields, and
so no two descriptors have the same text. -/
namespace BundlePlan

namespace Json

private theorem hexDigit_digits :
    ∀ d < 16, Toml.isHexDigit (hexDigit d) = true ∧ Toml.digitValue (hexDigit d) = d := by decide

private theorem spells_escaped (c : Char) : Spells (escaped c) c := by
  unfold escaped
  split
  case h_8 quote slash _ _ _ _ _ =>
    split
    · rename_i control
      have low : c.toNat < 256 := Nat.lt_trans (Char.lt_def.1 control) (by decide)
      obtain ⟨hexadecimal, valued⟩ := Toml.positional_two hexDigit_digits low
      exact .escaped (.numbered _ c ⟨rfl, List.all_eq_true.1 hexadecimal, valued⟩)
    · rename_i printed
      exact .plain c (Char.not_lt.1 printed) quote slash
  all_goals exact .escaped (.short _ _ (by decide))

private theorem quoted_text (value : String) : Quoted (text value) value := by
  refine ⟨value.toList.flatMap escaped, ?_, rfl⟩
  induction value.toList with
  | nil => exact .nil
  | cons c rest ih => exact .cons (spells_escaped c) ih

section Lines

variable {bracket : Bracket} {outer indent : List Char} {items : List (List Char)}
  {elements : List bracket.Element}

private theorem derives_items (blank : Blank outer) (blankToo : Blank indent) (given : items ≠ [])
    (derived : List.Forall₂ (Derives (.element bracket)) items elements) :
    ∃ cs, Derives (.elements bracket) cs elements ∧
      [',', '\n'].intercalate (items.map (indent ++ ·)) ++ '\n' :: (outer ++ [bracket.closing]) =
        indent ++ cs := by
  induction derived with
  | nil => exact absurd rfl given
  | @cons item element rest others first further ih =>
    cases rest with
    | nil =>
      cases further
      have newline : Blank ('\n' :: outer) := List.forall_mem_cons.2 ⟨rfl, blank⟩
      exact ⟨_, .last first newline, by simp⟩
    | cons next more =>
      obtain ⟨cs, derives, same⟩ := ih (List.cons_ne_nil _ _)
      have newline : Blank ('\n' :: indent) := List.forall_mem_cons.2 ⟨rfl, blankToo⟩
      refine ⟨_, .more first (List.forall_mem_nil _) newline derives, ?_⟩
      rw [List.map_cons, List.map_cons, List.intercalate_cons_cons, ← List.map_cons]
      simp only [List.append_assoc, same, List.nil_append, List.cons_append]

private theorem derives_lines (blank : Blank outer) (blankToo : Blank indent) (given : items ≠ [])
    (derived : List.Forall₂ (Derives (.element bracket)) items elements) :
    Derives .value (bracket.opening :: lines outer indent items ++ [bracket.closing])
      (bracket.value elements) := by
  obtain ⟨cs, inside, same⟩ := derives_items blank blankToo given derived
  have newline : Blank ('\n' :: indent) := List.forall_mem_cons.2 ⟨rfl, blankToo⟩
  have whole := Derives.bracketed bracket newline inside
  simp only [List.cons_append, ← same] at whole
  simpa only [lines, List.cons_append, List.append_assoc] using whole

end Lines

/-- What a content stands for. -/
def valueOf : Content → Value
  | .text value => .string value
  | .texts values => .array (values.map .string)

theorem valueOf_injective : Function.Injective valueOf := by
  intro first second same
  cases first with
  | text text =>
    cases second with
    | text text' =>
      injection same with texts
      rw [texts]
    | texts => cases same
  | texts texts =>
    cases second with
    | text => cases same
    | texts texts' =>
      injection same with elements
      rw [(List.map_inj_right fun _ _ => Value.string.inj).1 elements]

private theorem derives_content (given : Content) :
    Derives .value (content given) (valueOf given) := by
  cases given with
  | text value => exact .text (quoted_text value)
  | texts values =>
    change Derives .value (texts values) _
    unfold texts
    by_cases empty : values = []
    · rw [empty]
      exact .empty .square (List.forall_mem_nil _)
    · have derived : List.Forall₂ (Derives (.element .square)) (values.map text)
          (values.map .string) := by
        rw [List.forall₂_map_left_iff, List.forall₂_map_right_iff, List.forall₂_same]
        exact fun value _ => .item (.text (quoted_text value))
      rw [if_neg (by simpa using empty)]
      exact derives_lines (by decide) (by decide) (by simpa using empty) derived

private theorem derives_document {entries : List (String × Content)} (given : entries ≠ []) :
    Derives .value (document entries) (.object (entries.map (Prod.map id valueOf))) := by
  have derived : List.Forall₂ (Derives (.element .curly)) (entries.map field)
      (entries.map (Prod.map id valueOf)) := by
    rw [List.forall₂_map_left_iff, List.forall₂_map_right_iff, List.forall₂_same]
    intro entry _
    have blank : Blank [' '] := by decide
    exact .member (quoted_text entry.1) (List.forall_mem_nil _) blank (derives_content entry.2)
  exact derives_lines (List.forall_mem_nil _) (by decide) (by simpa using given) derived

end Json

namespace Descriptor

/-- The fields that are found in the text of a descriptor. -/
def jsonFields (descriptor : Descriptor) : List (String × Json.Value) :=
  [("entry_point", .string descriptor.entryPoint.text),
    ("search_paths", .array (descriptor.searchPaths.map fun path => .string path.text)),
    ("hidden_imports", .array (descriptor.hiddenImports.map fun id => .string id.text)),
    ("excludes", .array (descriptor.excludes.map fun id => .string id.text))] ++
  match descriptor.platform with
  | some platform => [("platform", .string platform.name)]
  | none => []

private theorem map_contents_json (descriptor : Descriptor) :
    descriptor.contents.map (Prod.map id Json.valueOf) = descriptor.jsonFields := by
  unfold contents jsonFields
  cases descriptor.platform <;> simp [Json.valueOf, Function.comp_def]

theorem jsonFields_inj {first second : Descriptor} :
    first.jsonFields = second.jsonFields ↔ first = second := by
  rw [← map_contents_json, ← map_contents_json, ← contents_inj]
  exact (Function.Injective.prodMap Function.injective_id Json.valueOf_injective).list_map.eq_iff

private theorem derives_json (descriptor : Descriptor) : Json.Derives .value
    (Json.document descriptor.contents) (.object descriptor.jsonFields) := by
  rw [← map_contents_json]
  exact Json.derives_document (by simp [contents])

private theorem toList_render_json (descriptor : Descriptor) :
    (descriptor.render .json).toList = Json.document descriptor.contents ++ ['\n'] :=
  String.toList_ofList

/-- The text of a descriptor is one document and a line end. By the grammar the document stands for
an object with the fields of the descriptor and for nothing else, so only this descriptor has this
text. -/
theorem denotes_json (descriptor : Descriptor) :
    ∃ document, (descriptor.render .json).toList = document ++ ['\n'] ∧
      (∀ value, Json.Denotes document value ↔ value = .object descriptor.jsonFields) ∧
      (∀ value, Json.Denotes (descriptor.render .json).toList value ↔
        value = .object descriptor.jsonFields) ∧
      ∀ other, other.render .json = descriptor.render .json ↔ other = descriptor := by
  have alone := descriptor.derives_json.denotes (List.forall_mem_nil _)
  rw [List.append_nil] at alone
  have ended (descriptor : Descriptor) : Json.Denotes (descriptor.render .json).toList
      (.object descriptor.jsonFields) := by
    rw [toList_render_json]
    exact descriptor.derives_json.denotes (by decide)
  refine ⟨_, toList_render_json descriptor,
    fun value => ⟨(·.unique alone), fun same => same ▸ alone⟩,
    fun value => ⟨(·.unique (ended _)), fun same => same ▸ ended _⟩,
    fun other => ⟨fun same => ?_, fun same => same ▸ rfl⟩⟩
  have denoted := ended other
  rw [same] at denoted
  exact jsonFields_inj.1 (Json.Value.object.inj (denoted.unique (ended descriptor)))

end Descriptor
end BundlePlan
