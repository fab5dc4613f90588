import BundlePlan.Dictionary
import BundlePlan.ModuleSet

/-! The graph of modules and of what each needs. Vertices are numbered in the order in which they
entered; an edge joins two numbers and tells where the dependency came from; between two vertices
there is at most one edge in each direction. -/
namespace BundlePlan

/-- Where a dependency is stated: by the module itself or in the platform table. -/
inductive EdgeKind
  | declared
  | platform
deriving DecidableEq, Repr

def EdgeKind.name : EdgeKind → String
  | declared => "declared"
  | platform => "platform"

instance : ToString EdgeKind := ⟨EdgeKind.name⟩

structure Edge where
  source : Nat
  target : Nat
  kind : EdgeKind
deriving DecidableEq

structure Graph where
  vertices : List ModuleId
  edges : List Edge
  /-- The number under which each vertex is found again. -/
  numbers : Dictionary ModuleId Nat
  numbered : numbers.entries = vertices.zipIdx
deriving DecidableEq

namespace Graph

def empty : Graph := ⟨[], [], ∅, rfl⟩

def index? (graph : Graph) (id : ModuleId) : Option Nat := graph.numbers.find? id

def addVertex (graph : Graph) (id : ModuleId) (new : graph.index? id = none) : Graph where
  vertices := graph.vertices ++ [id]
  edges := graph.edges
  numbers := graph.numbers.insert id graph.vertices.length
  numbered := by
    rw [Dictionary.entries_insert _ _ ((Dictionary.find?_eq_none_iff _).1 new), graph.numbered,
      List.zipIdx_append, Nat.zero_add]
    rfl

def vertex (graph : Graph) (id : ModuleId) : Graph × Nat :=
  match known : graph.index? id with
  | some index => (graph, index)
  | none => (graph.addVertex id known, graph.vertices.length)

def ofVertices (ids : List ModuleId) : Graph :=
  ids.foldl (fun graph id => (graph.vertex id).1) empty

/-- Gives an edge its new kind in its old place, or adds it at the end. -/
def setEdge (edge : Edge) : List Edge → List Edge
  | [] => [edge]
  | other :: rest =>
    if other.source = edge.source ∧ other.target = edge.target then edge :: rest
    else other :: setEdge edge rest

def link (graph : Graph) (source target : ModuleId) (kind : EdgeKind) : Graph :=
  let (graph, source) := graph.vertex source
  let (graph, target) := graph.vertex target
  { graph with edges := setEdge ⟨source, target, kind⟩ graph.edges }

/-- The vertices next after `index`, the newest edge first. -/
def successors (graph : Graph) (index : Nat) : List Nat :=
  ((graph.edges.filter fun edge => edge.source = index).map Edge.target).reverse

def dependenciesOf (graph : Graph) (id : ModuleId) : List (ModuleId × EdgeKind) :=
  match graph.index? id with
  | none => []
  | some index =>
    let leaving := graph.edges.filter fun edge => edge.source = index
    let labelled := leaving.filterMap fun edge =>
      (graph.vertices[edge.target]?).map fun target => (target, edge.kind)
    labelled.mergeSort fun a b => !(decide (b.1 < a.1))

/-- The graph in the notation of Graphviz: a line for each vertex, then a line for each edge. -/
def dot (graph : Graph) : String :=
  let vertexLine (index : Nat) (id : ModuleId) :=
    "    " ++ toString index ++ " [ label = \"" ++ id.text ++ "\" ]\n"
  let edgeLine (edge : Edge) :=
    "    " ++ toString edge.source ++ " -> " ++ toString edge.target ++
      " [ label = \"" ++ edge.kind.name ++ "\" ]\n"
  "digraph \x7b\n" ++ String.join (graph.vertices.mapIdx vertexLine) ++
    String.join (graph.edges.map edgeLine) ++ "\x7d\n"

end Graph
end BundlePlan
