import BundlePlan.Manifest
import BundlePlan.Platform
import BundlePlan.Resolution.Graph

/-! What is reported while a bundle is planned. Every report is a value of its own; its level and
its wording are functions of it. -/
namespace BundlePlan

inductive Level
  | warn
  | info
  | debug
deriving DecidableEq, Repr

def Level.name : Level → String
  | warn => "WARN"
  | info => "INFO"
  | debug => "DEBUG"

inductive Event
  | loadingManifest (id : ModuleId) (path : FilePath)
  | withoutDependencies (failure : LookupFailure)
  | notFollowed (failure : LookupFailure)
  | discovered (found origin : ModuleId) (kind : EdgeKind)
  | resolved (initial modules rounds : Nat) (platform : Platform)
  | loadingConfiguration (path : FilePath)
  | entryPointNotFound (path : FilePath)
  | resolving (initial plugins : Nat) (platform : Platform)
  | notExpanded (count : Nat)
  | exclusionIgnored (id : ModuleId)
  | excluding (id : ModuleId)
  | listed (inclusions exclusions : Nat)
  | wrote (path : FilePath)
deriving DecidableEq

namespace Event

def level : Event → Level
  | loadingManifest .. => .debug
  | withoutDependencies .. => .warn
  | notFollowed .. => .warn
  | discovered .. => .debug
  | resolved .. => .info
  | loadingConfiguration .. => .debug
  | entryPointNotFound .. => .warn
  | resolving .. => .info
  | notExpanded .. => .warn
  | exclusionIgnored .. => .warn
  | excluding .. => .info
  | listed .. => .info
  | wrote .. => .info

def text : Event → String
  | loadingManifest id path => s!"Loading manifest for {id} from {path}"
  | withoutDependencies failure => failure.message ++ "; treating as having no dependencies"
  | notFollowed failure => failure.message ++ "; no further modules discovered through it"
  | discovered found origin kind => s!"Discovered {found} via {origin} ({kind})"
  | resolved initial modules rounds platform =>
    s!"Resolved {initial} initial modules to {modules} modules in {rounds} rounds on {platform}"
  | loadingConfiguration path => s!"Loading build configuration from {path}"
  | entryPointNotFound path => s!"Entry point not found: {path}"
  | resolving initial plugins platform =>
    s!"Resolving {initial} initial modules ({plugins} enabled plugins) for {platform}"
  | notExpanded count =>
    s!"{count} modules could not be loaded and were included without expansion"
  | exclusionIgnored id => s!"Ignoring exclusion of {id}: it is an always-included module"
  | excluding id => s!"Excluding resolved module {id}"
  | listed inclusions exclusions =>
    s!"Descriptor lists {inclusions} inclusions and {exclusions} exclusions"
  | wrote path => s!"Wrote {path}"

end Event
end BundlePlan
