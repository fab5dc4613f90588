import BundlePlan.Manifest

/-! Why a build configuration is refused. -/
namespace BundlePlan

/-- A field is given by its dotted name, a value as it is written. -/
inductive ConfigurationFault
  | unreadable (path : FilePath) (failure : FileFailure)
  | unresolvable (path : FilePath) (failure : FileFailure)
  | document (fault : Toml.Fault)
  | missingField (field : String)
  | invalidId (field value : String)
  | foreignManifestId (key declared : String)
  | manifest (failure : LookupFailure)
  | outsideNamespace (field value scope : String)
  | unknownPlatform (field value : String)
deriving DecidableEq

def ConfigurationFault.message : ConfigurationFault → String
  | unreadable path failure => s!"failed to read {path}: " ++ failure.message
  | unresolvable path failure => s!"failed to resolve path {path}: " ++ failure.message
  | document fault => "failed to parse configuration: " ++ fault.message
  | missingField field => s!"missing required field `{field}`"
  | invalidId field value => "invalid module identifier " ++ Text.quoted value ++ s!" in `{field}`"
  | foreignManifestId key declared => s!"manifest for {key} declares id " ++ Text.quoted declared
  | manifest failure => "invalid inline manifest: " ++ failure.message
  | outsideNamespace field value scope =>
    s!"`{field}` names {value}, which is outside plugin namespace {scope}"
  | unknownPlatform field value => "unknown platform " ++ Text.quoted value ++ s!" in `{field}`"

end BundlePlan
