import BundlePlan.Manifest

/-! The layout of a configuration file, before anything in it is checked against the rest. -/
namespace BundlePlan

structure BundleSection where
  entryPoint : Option FilePath
  searchPaths : List FilePath
  pluginNamespace : String
  alwaysIncluded : List String
  excludes : List String
  manifestDirectory : Option FilePath
deriving DecidableEq

/-- Plugins are listed by name, or each has a table of options that tells whether it is enabled. -/
inductive ExtensionsSection
  | list (names : List String)
  | table (enabled : Dictionary String Bool)

def ExtensionsSection.enabled : ExtensionsSection → List String
  | list names => names
  | table flags => (flags.entries.filter Prod.snd).map Prod.fst

structure Sections where
  bundle : Option BundleSection
  extensions : ExtensionsSection
  /-- By plugin, then by platform: more modules that the plugin needs there. -/
  platformDependencies : Dictionary String (Dictionary String (List String))
  manifests : Dictionary String Manifest

namespace Sections
open Toml

def bundleFields : List String :=
  ["entry_point", "search_paths", "plugin_namespace", "always_included", "excludes", "manifest_dir"]

def readPath (field : String) (value : Value) : Except Fault FilePath := do
  return ⟨← value.asText field⟩

def readPaths (field : String) (value : Value) : Except Fault (List FilePath) := do
  return (← value.asTexts field).map FilePath.mk

def readBundle (field : String) (value : Value) : Except Fault BundleSection := do
  let fields ← value.asRecord field bundleFields
  let entryPoint ← fields.optional "entry_point" readPath
  let searchPaths ← fields.optional "search_paths" readPaths
  let pluginNamespace ← fields.optional "plugin_namespace" Value.asText
  let alwaysIncluded ← fields.optional "always_included" Value.asTexts
  let excludes ← fields.optional "excludes" Value.asTexts
  let manifestDirectory ← fields.optional "manifest_dir" readPath
  return {
    entryPoint := entryPoint
    searchPaths := searchPaths.getD []
    pluginNamespace := pluginNamespace.getD ""
    alwaysIncluded := alwaysIncluded.getD []
    excludes := excludes.getD []
    manifestDirectory := manifestDirectory }

/-- The key under which a table stands for a date. -/
def dateKey : String := "$__toml_private_datetime"

mutual

/-- Whether a setting of a plugin can be kept. Settings are free, but a number must be readable,
and a nested table whose first key is the date key must stand for a date and hold nothing else. -/
def isSetting : Value → Bool
  | .unreadable _ => false
  | .array items => areSettings items
  | .table [] => true
  | .table ((key, value) :: rest) =>
    if key = dateKey then
      match value, rest with
      | .string text, [] => isDateTime text.toList
      | _, _ => false
    else isSetting value && haveSettings rest
  | _ => true

def areSettings : List Value → Bool
  | [] => true
  | value :: rest => isSetting value && areSettings rest

def haveSettings : List (String × Value) → Bool
  | [] => true
  | (_, value) :: rest => isSetting value && haveSettings rest

end

def readFlag (field : String) : Value → Except Fault Bool
  | .boolean value => .ok value
  | _ => .error (.wrongType field)

/-- The options of a plugin: it is enabled unless they say otherwise. A date counts as a table
without entries. -/
def readOptions (field : String) : Value → Except Fault Bool
  | .dateTime _ => .ok true
  | .table entries =>
    if haveSettings (entries.filter fun entry => entry.1 ≠ "enabled") then do
      let flag ← Fields.optional entries "enabled" readFlag
      return flag.getD true
    else .error (.wrongType field)
  | _ => .error (.wrongType field)

def readDictionary {α : Type} (read : String → Value → Except Fault α) (field : String)
    (value : Value) : Except Fault (Dictionary String α) := do
  let entries ← (← value.asTable field).mapM fun entry => do
    return (entry.1, ← read entry.1 entry.2)
  return .ofList entries

def readExtensions (field : String) (value : Value) : Except Fault ExtensionsSection :=
  match value with
  | .array _ => do return .list (← value.asTexts field)
  | value => do return .table (← readDictionary readOptions field value)

def ofEntries (entries : List (String × Value)) : Except Fault Sections := do
  let fields : Fields ←
    knownFields ["bundle", "extensions", "platform_dependencies", "manifests"] entries
  let bundle ← fields.optional "bundle" readBundle
  let extensions ← fields.optional "extensions" readExtensions
  let platformDependencies ←
    fields.optional "platform_dependencies" (readDictionary (readDictionary Value.asTexts))
  let manifests ← fields.optional "manifests" (readDictionary Manifest.ofValue)
  return {
    bundle := bundle
    extensions := extensions.getD (.list [])
    platformDependencies := platformDependencies.getD ∅
    manifests := manifests.getD ∅ }

def ofText (text : String) : Except Fault Sections := do
  ofEntries (← parse text)

end Sections
end BundlePlan
