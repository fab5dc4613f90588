import BundlePlan.Catalog
import BundlePlan.Configuration.Fault
import BundlePlan.Configuration.Sections
import BundlePlan.PlatformTable

/-! Checked build configurations. All identifiers are valid, whatever is said about a plugin is
about a module in the plugin namespace, and paths are absolute. The first fault found in the order
of the checks is the one reported. -/
namespace BundlePlan

structure Configuration where
  entryPoint : FilePath
  searchPaths : List FilePath
  pluginNamespace : Option ModuleId
  alwaysIncluded : ModuleSet
  excludes : ModuleSet
  enabledPlugins : List String
  platformTable : PlatformTable
  manifests : Dictionary ModuleId Declaration
  manifestDirectory : Option FilePath

namespace Configuration

def requireId (field value : String) : Except ConfigurationFault ModuleId :=
  match ModuleId.parse? value with
  | some id => .ok id
  | none => .error (.invalidId field value)

def requireIds (field : String) (values : List String) : Except ConfigurationFault ModuleSet := do
  return .ofList (← values.mapM (requireId field))

def requireGiven {α : Type} (field : String) : Option α → Except ConfigurationFault α
  | some value => .ok value
  | none => .error (.missingField field)

/-- No name at all stands for no namespace. -/
def readNamespace (field value : String) : Except ConfigurationFault (Option ModuleId) :=
  if value = "" then .ok none else (requireId field value).map some

def pluginId? (scope : Option ModuleId) (name : String) : Option ModuleId :=
  match scope with
  | some scope => (scope.child name).toOption
  | none => ModuleId.parse? name

def requirePlugins (field : String) (scope : Option ModuleId) (names : List String) :
    Except ConfigurationFault Unit :=
  match names.find? fun name => !isPrivate name && (pluginId? scope name).isNone with
  | some name => .error (.invalidId field name)
  | none => .ok ()

/-- A module whose dependencies are followed: nothing may be said about another one. -/
def requireFollowed (field key : String) (scope : Option ModuleId) :
    Except ConfigurationFault ModuleId := do
  let id ← requireId field key
  match scope with
  | some scope =>
    if id.isWithin scope then return id
    else throw (.outsideNamespace field id.text scope.text)
  | none => return id

def readRow (field : String) (plugin : ModuleId) (table : PlatformTable)
    (row : String × List String) : Except ConfigurationFault PlatformTable :=
  match Platform.ofName? row.1 with
  | none => .error (.unknownPlatform field row.1)
  | some platform => do
    let dependencies ← requireIds (field ++ "." ++ row.1) row.2
    return table.insert plugin platform dependencies.toList

def readRows (scope : Option ModuleId) (table : PlatformTable)
    (rows : String × Dictionary String (List String)) :
    Except ConfigurationFault PlatformTable := do
  let field := "platform_dependencies." ++ rows.1
  let plugin ← requireFollowed field rows.1 scope
  rows.2.entries.foldlM (readRow field plugin) table

def readManifest (scope : Option ModuleId) (manifests : Dictionary ModuleId Declaration)
    (entry : String × Manifest) : Except ConfigurationFault (Dictionary ModuleId Declaration) := do
  let id ← requireFollowed ("manifests." ++ entry.1) entry.1 scope
  match entry.2.foreignId? id with
  | some declared => throw (.foreignManifestId entry.1 declared)
  | none =>
    match entry.2.declaration id with
    | .error failure => throw (.manifest failure)
    | .ok declaration => return manifests.insert id declaration

/-- Checks the sections of a file; relative paths in it are seen from the directory `base`. -/
def ofSections (base : FilePath) (sections : Sections) :
    Except ConfigurationFault Configuration := do
  let bundle ← requireGiven "bundle" sections.bundle
  let entryPoint ← requireGiven "bundle.entry_point" (bundle.entryPoint.filter (·.text ≠ ""))
  if bundle.searchPaths.isEmpty then throw (.missingField "bundle.search_paths")
  let scope ← readNamespace "bundle.plugin_namespace" bundle.pluginNamespace
  let alwaysIncluded ← requireIds "bundle.always_included" bundle.alwaysIncluded
  let excludes ← requireIds "bundle.excludes" bundle.excludes
  let enabled := sections.extensions.enabled
  requirePlugins "extensions" scope enabled
  let table ← sections.platformDependencies.entries.foldlM (readRows scope) ∅
  let manifests ← sections.manifests.entries.foldlM (readManifest scope) ∅
  return {
    entryPoint := base.absoluteFrom entryPoint
    searchPaths := bundle.searchPaths.map base.absoluteFrom
    pluginNamespace := scope
    alwaysIncluded := alwaysIncluded
    excludes := excludes
    enabledPlugins := enabled
    platformTable := table
    manifests := manifests
    manifestDirectory := bundle.manifestDirectory.map base.absoluteFrom }

def ofText (disk : Disk) (base : FilePath) (text : String) :
    Logged (Except ConfigurationFault Configuration) :=
  match Sections.ofText text with
  | .error fault => pure (.error (.document fault))
  | .ok sections =>
    match ofSections base sections with
    | .error fault => pure (.error fault)
    | .ok configuration => do
      if !disk.pathExists configuration.entryPoint then
        Logged.report (.entryPointNotFound configuration.entryPoint)
      return .ok configuration

def directoryOf (disk : Disk) (path : FilePath) : FilePath :=
  match FilePath.parentParts? path.parts with
  | none => disk.workingDirectory.absoluteFrom ⟨"."⟩
  | some [] => disk.workingDirectory.absoluteFrom ⟨"."⟩
  | some parent => disk.workingDirectory.absoluteFrom (.ofParts parent)

/-- Loads the file at `path`; relative paths in it are seen from its directory. -/
def load (disk : Disk) (path : FilePath) : Logged (Except ConfigurationFault Configuration) :=
  match disk.readText path with
  | .error failure => pure (.error (.unreadable path failure))
  | .ok text => do
    Logged.report (.loadingConfiguration path)
    ofText disk (directoryOf disk path) text

/-- Looks for manifests in another directory, which is kept as it is written. -/
def setManifestDirectory (configuration : Configuration) (directory : FilePath) : Configuration :=
  { configuration with manifestDirectory := some directory }

def pluginModule? (configuration : Configuration) (name : String) : Option ModuleId :=
  pluginId? configuration.pluginNamespace name

/-- Where resolution starts: the modules always included and the enabled plugins. -/
def initialModules (configuration : Configuration) : ModuleSet :=
  let plugins := configuration.enabledPlugins.filter fun name => !isPrivate name
  configuration.alwaysIncluded.union (.ofList (plugins.filterMap configuration.pluginModule?))

def catalog (configuration : Configuration) : Catalog where
  stated := .ofList (configuration.manifests.entries.map fun entry => (entry.1, .ok entry.2))
  directory := configuration.manifestDirectory

end Configuration
end BundlePlan
