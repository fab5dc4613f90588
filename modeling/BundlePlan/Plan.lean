import BundlePlan.Configuration
import BundlePlan.Descriptor
import BundlePlan.Resolver

/-! Planning a bundle: everything that the configured modules need is resolved, what must not be
bundled is taken out again, and the descriptor says what remains. -/
namespace BundlePlan

structure Plan where
  resolution : Resolution
  descriptor : Descriptor

namespace Plan

def exclusions (configuration : Configuration) : ModuleSet :=
  configuration.excludes.diff configuration.alwaysIncluded

/-- The exclusions, with a warning for each one that is overruled. -/
def effectiveExclusions (configuration : Configuration) : Logged ModuleSet :=
  ⟨exclusions configuration,
    (configuration.excludes.inter configuration.alwaysIncluded).toList.map .exclusionIgnored, []⟩

def resolver (configuration : Configuration)
    (lookup : ModuleId → Logged (Except LookupFailure Declaration)) : Resolver :=
  ⟨lookup, configuration.platformTable, configuration.pluginNamespace⟩

def parts (configuration : Configuration) (platform : Platform) (resolution : Resolution) :
    Descriptor.Parts where
  entryPoint := some configuration.entryPoint
  searchPaths := configuration.searchPaths
  resolved := resolution.modules
  exclusions := exclusions configuration
  platform := some platform

def describe (configuration : Configuration) (platform : Platform) (resolution : Resolution) :
    Logged (Except ConfigurationFault Plan) := do
  if !resolution.unavailable.isEmpty then
    Logged.report (.notExpanded resolution.unavailable.size)
  let excluded ← effectiveExclusions configuration
  (⟨(), (resolution.modules.inter excluded).toList.map .excluding, []⟩ : Logged Unit)
  match (parts configuration platform resolution).build with
  | .error fault => return .error fault
  | .ok descriptor =>
    Logged.report (.listed descriptor.hiddenImports.length descriptor.excludes.length)
    return .ok ⟨resolution, descriptor⟩

/-- Plans a bundle with lookups that reach finitely many modules. -/
def make (configuration : Configuration)
    (lookup : ModuleId → Logged (Except LookupFailure Declaration)) (platform : Platform)
    (bounded : (resolver configuration lookup).Bounded platform configuration.initialModules) :
    Logged (Except ConfigurationFault Plan) := do
  let initial := configuration.initialModules
  Logged.report (.resolving initial.size configuration.enabledPlugins.length platform)
  let resolution ← (resolver configuration lookup).resolve platform initial bounded
  describe configuration platform resolution

def ofCatalog (disk : Disk) (configuration : Configuration) (catalog : Catalog)
    (platform : Platform) : Logged (Except ConfigurationFault Plan) :=
  make configuration (catalog.declaration disk) platform
    (Resolver.bounded_ofCatalog catalog disk _ _ platform _)

def ofConfiguration (disk : Disk) (configuration : Configuration) (platform : Platform) :
    Logged (Except ConfigurationFault Plan) :=
  ofCatalog disk configuration configuration.catalog platform

end Plan
end BundlePlan
