import BundlePlan.Resolution.Search

/-! The outcome of following dependencies from an initial set of modules: which modules are needed
and how each of them came in. -/
namespace BundlePlan

structure Resolution where
  modules : ModuleSet
  initial : ModuleSet
  /-- Those modules whose declaration was asked for in vain. -/
  unavailable : ModuleSet
  /-- The number of modules before the first round and after each round. -/
  growth : List Nat
  graph : Graph
  /-- The modules whose declaration was asked for, in order. -/
  lookups : List ModuleId
deriving DecidableEq

namespace Resolution

def seed (initial : ModuleSet) : Resolution where
  modules := initial
  initial := initial
  unavailable := ∅
  growth := [initial.size]
  graph := .ofVertices initial.toList
  lookups := []

def rounds (resolution : Resolution) : Nat := resolution.growth.length - 1

def contains (resolution : Resolution) (id : ModuleId) : Bool := id ∈ resolution.modules

def dependenciesOf (resolution : Resolution) (id : ModuleId) : List (ModuleId × EdgeKind) :=
  resolution.graph.dependenciesOf id

/-- The shortest of these walks, the first one if several are equally short. -/
def shortest? : List Walk → Option Walk
  | [] => none
  | walk :: rest =>
    match shortest? rest with
    | none => some walk
    | some other => if other.length < walk.length then some other else some walk

/-- A shortest chain of dependencies from an initial module to `id`; of the initial modules that
have one, the least. -/
def explain (resolution : Resolution) (id : ModuleId) : Option (List ModuleId) := do
  let graph := resolution.graph
  let goal ← graph.index? id
  let walks := resolution.initial.toList.filterMap fun origin => do
    graph.shortestWalk? (← graph.index? origin) goal
  let walk ← shortest? walks
  return walk.vertices.filterMap fun index => graph.vertices[index]?

def dot (resolution : Resolution) : String := resolution.graph.dot

end Resolution
end BundlePlan
