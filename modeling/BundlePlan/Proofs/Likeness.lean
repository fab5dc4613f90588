import BundlePlan.Proofs.Reading
import Mathlib.Tactic.MkIffOfInductiveProp

/-! Files that say the same: they list the same modules in each place, in whatever order and however
often, and enable the same plugins, in whatever form. -/
namespace BundlePlan

section
variable {α β γ δ : Type} {related : α → β → Prop} {first : Option α} {second : Option β}

theorem exists_of_rel (here : Option.Rel related first second) {a : α}
    (given : first = some a) : ∃ b, second = some b ∧ related a b := by
  cases here with
  | none => cases given
  | @some x y same =>
    obtain rfl := Option.some.inj given
    exact ⟨y, rfl, same⟩

theorem rel_symm {turned : β → α → Prop} (each : ∀ a b, related a b → turned b a)
    (here : Option.Rel related first second) : Option.Rel turned second first := by
  cases here with
  | none => exact .none
  | some same => exact .some (each _ _ same)

theorem eq_of_rel {shows : α → γ → Prop} {showsToo : β → γ → Prop} {left right : Option γ}
    (here : Option.Rel related first second) (read : Option.Rel shows first left)
    (readToo : Option.Rel showsToo second right)
    (unique : ∀ a b, related a b → ∀ c d, shows a c → showsToo b d → c = d) : left = right := by
  cases here with
  | none =>
    cases read
    cases readToo
    rfl
  | some same =>
    cases read with
    | some shown =>
      cases readToo with
      | some shownToo => rw [unique _ _ same _ _ shown shownToo]

end

/-- The dictionaries have the same keys, and related values under each of them. -/
def Dictionary.Alike {κ α β : Type} [DecidableEq κ] (related : α → β → Prop) (d : Dictionary κ α)
    (e : Dictionary κ β) : Prop := ∀ key, Option.Rel related (d.find? key) (e.find? key)

def SameTexts (first second : List String) : Prop := ∀ text, text ∈ first ↔ text ∈ second

@[mk_iff]
structure BundleSection.Alike (first second : BundleSection) : Prop where
  entryPoint : first.entryPoint = second.entryPoint
  searchPaths : first.searchPaths = second.searchPaths
  pluginNamespace : first.pluginNamespace = second.pluginNamespace
  manifestDirectory : first.manifestDirectory = second.manifestDirectory
  alwaysIncluded : SameTexts first.alwaysIncluded second.alwaysIncluded
  excludes : SameTexts first.excludes second.excludes

@[mk_iff]
structure Manifest.Alike (first second : Manifest) : Prop where
  id : first.id = second.id
  dependencies : Option.Rel SameTexts first.dependencies second.dependencies

/-- The enabled plugins other than private ones, as often as they are listed. -/
def ExtensionsSection.publicPlugins (extensions : ExtensionsSection) : List String :=
  extensions.enabled.filter fun name => !isPrivate name

/-- The two files say the same, in whatever order and however often: they enable the same plugins
other than private ones, and list the same modules in each place. -/
@[mk_iff]
structure Sections.Alike (first second : Sections) : Prop where
  bundle : Option.Rel BundleSection.Alike first.bundle second.bundle
  plugins : SameTexts first.extensions.publicPlugins second.extensions.publicPlugins
  rows : first.platformDependencies.Alike (Dictionary.Alike SameTexts) second.platformDependencies
  manifests : first.manifests.Alike Manifest.Alike second.manifests

instance decidableRel {α β : Type} {related : α → β → Prop} [∀ a b, Decidable (related a b)] :
    ∀ (first : Option α) (second : Option β), Decidable (Option.Rel related first second)
  | none, none => .isTrue .none
  | some a, some b => decidable_of_iff (related a b) Option.rel_some_some.symm
  | none, some _ => .isFalse nofun
  | some _, none => .isFalse nofun

instance (first second : List String) : Decidable (SameTexts first second) :=
  decidable_of_iff ((∀ text ∈ first, text ∈ second) ∧ ∀ text ∈ second, text ∈ first)
    ⟨fun both text => ⟨both.1 text, both.2 text⟩,
      fun same => ⟨fun text => (same text).1, fun text => (same text).2⟩⟩

theorem Dictionary.alike_iff {κ α β : Type} [DecidableEq κ] {related : α → β → Prop}
    {d : Dictionary κ α} {e : Dictionary κ β} : d.Alike related e ↔
      ∀ key ∈ d.keys ++ e.keys, Option.Rel related (d.find? key) (e.find? key) := by
  refine ⟨fun alike key _ => alike key, fun here key => ?_⟩
  by_cases member : key ∈ d.keys ++ e.keys
  · exact here key member
  · rw [List.mem_append, not_or] at member
    rw [(find?_eq_none_iff d).2 member.1, (find?_eq_none_iff e).2 member.2]
    exact .none

instance {κ α β : Type} [DecidableEq κ] {related : α → β → Prop} [∀ a b, Decidable (related a b)]
    (d : Dictionary κ α) (e : Dictionary κ β) : Decidable (d.Alike related e) :=
  decidable_of_iff _ Dictionary.alike_iff.symm

instance (first second : BundleSection) : Decidable (first.Alike second) :=
  decidable_of_iff _ (BundleSection.alike_iff first second).symm

instance (first second : Manifest) : Decidable (first.Alike second) :=
  decidable_of_iff _ (Manifest.alike_iff first second).symm

instance (first second : Sections) : Decidable (first.Alike second) :=
  decidable_of_iff _ (Sections.alike_iff first second).symm

theorem ExtensionsSection.mem_publicPlugins {extensions : ExtensionsSection} {name : String} :
    name ∈ extensions.publicPlugins ↔ name ∈ extensions.enabled ∧ isPrivate name = false := by
  rw [publicPlugins, List.mem_filter, Bool.not_eq_true']

private theorem SameTexts.symm {first second : List String} (same : SameTexts first second) :
    SameTexts second first := fun text => (same text).symm

namespace Dictionary.Alike

variable {κ α β : Type} [DecidableEq κ] {related : α → β → Prop} {d : Dictionary κ α}
  {e : Dictionary κ β} {key : κ}

private theorem symm {turned : β → α → Prop} (each : ∀ a b, related a b → turned b a)
    (alike : d.Alike related e) : e.Alike turned d := fun key => rel_symm each (alike key)

theorem exists_entry {value : α} (alike : d.Alike related e) (entry : (key, value) ∈ d.entries) :
    ∃ other, (key, other) ∈ e.entries ∧ related value other := by
  obtain ⟨other, found, same⟩ := exists_of_rel (alike key) ((find?_eq_some_iff d).2 entry)
  exact ⟨other, (find?_eq_some_iff e).1 found, same⟩

theorem mem_keys (alike : d.Alike related e) (member : key ∈ d.keys) : key ∈ e.keys := by
  obtain ⟨⟨_, value⟩, entry, rfl⟩ := List.mem_map.1 member
  obtain ⟨other, found, _⟩ := alike.exists_entry entry
  exact List.mem_map.2 ⟨_, found, rfl⟩

end Dictionary.Alike

namespace Sections

variable {first second : Sections}

theorem mem_rows_iff {sections : Sections} {row : (String × String) × List String} :
    row ∈ sections.rows ↔ ∃ inner, (row.1.1, inner) ∈ sections.platformDependencies.entries ∧
      (row.1.2, row.2) ∈ inner.entries := by
  simp only [rows, rowsOf, List.mem_flatMap, List.mem_map]
  constructor
  · rintro ⟨⟨_, inner⟩, outer, ⟨_, _⟩, inside, rfl⟩
    exact ⟨inner, outer, inside⟩
  · rintro ⟨inner, outer, inside⟩
    exact ⟨_, outer, _, inside, rfl⟩

namespace Alike

theorem symm (alike : first.Alike second) : second.Alike first where
  bundle := rel_symm (fun _ _ same => {
    entryPoint := same.entryPoint.symm
    searchPaths := same.searchPaths.symm
    pluginNamespace := same.pluginNamespace.symm
    manifestDirectory := same.manifestDirectory.symm
    alwaysIncluded := same.alwaysIncluded.symm
    excludes := same.excludes.symm }) alike.bundle
  plugins := alike.plugins.symm
  rows := alike.rows.symm fun _ _ inner => inner.symm fun _ _ same => same.symm
  manifests := alike.manifests.symm fun _ _ same =>
    ⟨same.id.symm, rel_symm (fun _ _ texts => texts.symm) same.dependencies⟩

theorem exists_row (alike : first.Alike second) {row : (String × String) × List String}
    (member : row ∈ first.rows) :
    ∃ texts, (row.1, texts) ∈ second.rows ∧ SameTexts row.2 texts := by
  obtain ⟨inner, outer, inside⟩ := mem_rows_iff.1 member
  obtain ⟨other, outerToo, alikeToo⟩ := alike.rows.exists_entry outer
  obtain ⟨texts, insideToo, same⟩ := alikeToo.exists_entry inside
  exact ⟨texts, mem_rows_iff.2 ⟨other, outerToo, insideToo⟩, same⟩

theorem mem_row (alike : first.Alike second) {plugin platform text : String}
    (member : text ∈ first.row plugin platform) : text ∈ second.row plugin platform := by
  obtain ⟨texts, inside, listed⟩ := mem_row_iff.1 member
  obtain ⟨other, insideToo, same⟩ := alike.exists_row inside
  exact mem_row_iff.2 ⟨other, insideToo, (same text).1 listed⟩

end Alike
end Sections

end BundlePlan
