import BundlePlan.Configuration.Fault
import BundlePlan.Platform

/-! Bundle descriptors: what the packaging step embeds and what it leaves out. Both lists are in
ascending order. -/
namespace BundlePlan

structure Descriptor where
  entryPoint : FilePath
  searchPaths : List FilePath
  hiddenImports : List ModuleId
  excludes : List ModuleId
  platform : Option Platform
deriving DecidableEq

inductive Content
  | text (text : String)
  | texts (texts : List String)
deriving DecidableEq

namespace Descriptor

def emit (resolved exclusions : ModuleSet) (entryPoint : FilePath) (searchPaths : List FilePath) :
    Descriptor where
  entryPoint := entryPoint
  searchPaths := searchPaths
  hiddenImports := (resolved.diff exclusions).toList
  excludes := exclusions.toList
  platform := none

/-- The makings of a descriptor; without an entry point and a search path there is none. -/
structure Parts where
  entryPoint : Option FilePath := none
  searchPaths : List FilePath := []
  resolved : ModuleSet := ∅
  exclusions : ModuleSet := ∅
  platform : Option Platform := none

def Parts.build (parts : Parts) : Except ConfigurationFault Descriptor :=
  match parts.entryPoint, parts.searchPaths with
  | none, _ => .error (.missingField "entry_point")
  | some _, [] => .error (.missingField "search_paths")
  | some entryPoint, searchPaths =>
    .ok { emit parts.resolved parts.exclusions entryPoint searchPaths with
      platform := parts.platform }

/-- The document of a descriptor, key by key; the platform is left out if it is not known. -/
def contents (descriptor : Descriptor) : List (String × Content) :=
  [("entry_point", .text descriptor.entryPoint.text),
    ("search_paths", .texts (descriptor.searchPaths.map FilePath.text)),
    ("hidden_imports", .texts (descriptor.hiddenImports.map ModuleId.text)),
    ("excludes", .texts (descriptor.excludes.map ModuleId.text))] ++
  (descriptor.platform.map fun platform => ("platform", Content.text platform.name)).toList

theorem contents_inj {first second : Descriptor} :
    first.contents = second.contents ↔ first = second := by
  refine ⟨fun same => ?_, fun same => same ▸ rfl⟩
  obtain ⟨entryPoint, searchPaths, hiddenImports, excludes, platform⟩ := first
  obtain ⟨entryPoint', searchPaths', hiddenImports', excludes', platform'⟩ := second
  simp [contents, List.map_inj_right fun _ _ => FilePath.text_inj.1,
    List.map_inj_right fun _ _ => ModuleId.text_inj.1] at same
  obtain ⟨rfl, rfl, rfl, rfl, last⟩ := same
  cases platform <;> cases platform' <;> simp_all

end Descriptor
end BundlePlan
