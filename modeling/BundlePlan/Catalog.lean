import BundlePlan.Disk
import BundlePlan.Logged

/-! The catalog of modules: declarations stated in memory over an optional directory with one
manifest file for each module, which is read anew on every lookup. -/
namespace BundlePlan

structure Catalog where
  stated : Dictionary ModuleId (Except Malformation Declaration)
  directory : Option FilePath

namespace Catalog

def empty : Catalog := ⟨∅, none⟩

instance : EmptyCollection Catalog := ⟨empty⟩

def inDirectory (directory : FilePath) : Catalog := ⟨∅, some directory⟩

def setDirectory (catalog : Catalog) (directory : FilePath) : Catalog :=
  { catalog with directory := some directory }

def declareWith (catalog : Catalog) (id : ModuleId) (declaration : Declaration) : Catalog :=
  { catalog with stated := catalog.stated.insert id (.ok declaration) }

def declare (catalog : Catalog) (id : ModuleId) (dependencies : List ModuleId) : Catalog :=
  catalog.declareWith id (.fixed (.ofList dependencies))

def declareQuery (catalog : Catalog) (id : ModuleId) (answer : List ModuleId) : Catalog :=
  catalog.declareWith id (.query answer)

def declareEmpty (catalog : Catalog) (id : ModuleId) : Catalog := catalog.declareWith id .none

/-- States that `id` is there but of no use. -/
def declareMalformed (catalog : Catalog) (id : ModuleId) (reason : String) : Catalog :=
  { catalog with stated := catalog.stated.insert id (.error (.stated reason)) }

def size (catalog : Catalog) : Nat := catalog.stated.size

def isEmpty (catalog : Catalog) : Bool := catalog.stated.isEmpty

def manifestPath? (catalog : Catalog) (id : ModuleId) : Option FilePath :=
  catalog.directory.map fun directory => directory.beneath (id.text ++ ".toml")

/-- A file that is not there leaves its module missing; any other failure is one of the manifest. -/
def readManifest (disk : Disk) (id : ModuleId) (path : FilePath) :
    Except LookupFailure Declaration :=
  match disk.readText path with
  | .error .notFound => .error (.missing id)
  | .error failure => .error (.malformed id (.unreadable path failure))
  | .ok text =>
    match Manifest.parse id text with
    | .error failure => .error failure
    | .ok manifest => manifest.declaration id

def declaration (catalog : Catalog) (disk : Disk) (id : ModuleId) :
    Logged (Except LookupFailure Declaration) :=
  match catalog.stated.find? id with
  | some (.ok declaration) => pure (.ok declaration)
  | some (.error reason) => pure (.error (.malformed id reason))
  | none =>
    match catalog.manifestPath? id with
    | none => pure (.error (.missing id))
    | some path => ⟨readManifest disk id path, [.loadingManifest id path], []⟩

/-- A module that cannot be looked up has no dependencies. -/
def dependencies (catalog : Catalog) (disk : Disk) (id : ModuleId) : Logged ModuleSet := do
  match ← catalog.declaration disk id with
  | .ok declaration => declaration.evaluate id
  | .error failure =>
    Logged.report (.withoutDependencies failure)
    return ∅

end Catalog
end BundlePlan
