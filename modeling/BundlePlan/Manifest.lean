import BundlePlan.Declaration
import BundlePlan.FileTree
import BundlePlan.Toml.Document
import BundlePlan.Toml.Record

/-! Manifests: what one module needs, written down in a small document of its own or inside a
larger one, and the reasons for which looking a module up comes to nothing. -/
namespace BundlePlan

structure Manifest where
  id : Option String
  dependencies : Option (List String)
  description : Option String
deriving DecidableEq

/-- Why something that is there cannot be used as a manifest. -/
inductive Malformation
  | document (fault : Toml.Fault)
  | foreignId (declared : String)
  | unreadable (path : FilePath) (failure : FileFailure)
  | dependency (invalid : InvalidModuleId)
  | stated (reason : String)
deriving DecidableEq

def Malformation.message : Malformation → String
  | document fault => "failed to parse manifest TOML: " ++ fault.message
  | foreignId declared => "manifest declares id " ++ Text.quoted declared
  | unreadable path failure => "failed to read " ++ path.text ++ ": " ++ failure.message
  | dependency invalid => invalid.message
  | stated reason => reason

inductive LookupFailure
  | missing (id : ModuleId)
  | malformed (id : ModuleId) (reason : Malformation)
deriving DecidableEq

def LookupFailure.message : LookupFailure → String
  | missing id => "module " ++ id.text ++ " is not available"
  | malformed id reason => "module " ++ id.text ++ " has a malformed manifest: " ++ reason.message

namespace Manifest

def fieldNames : List String := ["id", "dependencies", "description"]

def ofFields (fields : Toml.Fields) : Except Toml.Fault Manifest := do
  let id ← fields.optional "id" Toml.Value.asText
  let dependencies ← fields.optional "dependencies" Toml.Value.asTexts
  let description ← fields.optional "description" Toml.Value.asText
  return ⟨id, dependencies, description⟩

def ofValue (field : String) (value : Toml.Value) : Except Toml.Fault Manifest := do
  ofFields (← value.asRecord field fieldNames)

def ofText (text : String) : Except Toml.Fault Manifest := do
  ofFields (← Toml.knownFields fieldNames (← Toml.parse text))

/-- The identifier that the manifest states, if it is not that of its module; a manifest may also
state none. -/
def foreignId? (manifest : Manifest) (id : ModuleId) : Option String :=
  manifest.id.filter (· ≠ id.text)

def parse (id : ModuleId) (text : String) : Except LookupFailure Manifest :=
  match ofText text with
  | .error fault => .error (.malformed id (.document fault))
  | .ok manifest =>
    match manifest.foreignId? id with
    | some declared => .error (.malformed id (.foreignId declared))
    | none => .ok manifest

/-- The dependencies as identifiers; the first text that is none is reported. -/
def declared (manifest : Manifest) : Except InvalidModuleId Declaration :=
  match manifest.dependencies with
  | none => .ok .none
  | some texts => do return .fixed (.ofList (← texts.mapM ModuleId.parse))

def declaration (manifest : Manifest) (id : ModuleId) : Except LookupFailure Declaration :=
  match manifest.declared with
  | .ok declaration => .ok declaration
  | .error invalid => .error (.malformed id (.dependency invalid))

end Manifest
end BundlePlan
