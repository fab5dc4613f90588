import BundlePlan.Resolution.Graph
import Mathlib.Data.List.Basic
import Mathlib.Data.List.Nodup

/-! The numbered graph seen from outside: a list of labelled arcs between modules, in the order in
which they were linked. A link adds one arc and moves no number, so that what the graph says about
a module can be read off the arcs. -/
namespace BundlePlan

structure Arc where
  source : ModuleId
  target : ModuleId
  kind : EdgeKind
deriving DecidableEq

namespace Arc

/-- The edge that stands for an arc once its ends have numbers. -/
def numbered (vertices : List ModuleId) (arc : Arc) : Edge :=
  ⟨vertices.idxOf arc.source, vertices.idxOf arc.target, arc.kind⟩

def Parallel (first second : Arc) : Prop :=
  first.source = second.source ∧ first.target = second.target

theorem numbered_append {vertices : List ModuleId} {arc : Arc} (source : arc.source ∈ vertices)
    (target : arc.target ∈ vertices) (others : List ModuleId) :
    arc.numbered (vertices ++ others) = arc.numbered vertices := by
  simp only [numbered, List.idxOf_append_of_mem source, List.idxOf_append_of_mem target]

end Arc

namespace Graph

/-- The graph holds these arcs and no other edges, and numbers each module once. -/
structure Records (graph : Graph) (arcs : List Arc) : Prop where
  distinct : graph.vertices.Nodup
  sources : ∀ arc ∈ arcs, arc.source ∈ graph.vertices
  targets : ∀ arc ∈ arcs, arc.target ∈ graph.vertices
  edges : graph.edges = arcs.map (Arc.numbered graph.vertices)

variable {graph : Graph} {arcs : List Arc}

theorem index?_eq_some {id : ModuleId} {n : Nat} :
    graph.index? id = some n ↔ graph.vertices[n]? = some id := by
  rw [index?, Dictionary.find?_eq_some_iff, graph.numbered, List.mk_mem_zipIdx_iff_getElem?]

theorem index?_of_mem {id : ModuleId} (member : id ∈ graph.vertices) :
    graph.index? id = some (graph.vertices.idxOf id) :=
  index?_eq_some.2 (List.getElem?_idxOf member)

@[simp] theorem keys_numbers (graph : Graph) : graph.numbers.keys = graph.vertices := by
  rw [Dictionary.keys, graph.numbered, List.zipIdx_map_fst]

theorem index?_of_not_mem {id : ModuleId} (absent : id ∉ graph.vertices) :
    graph.index? id = none := by
  rw [index?, Dictionary.find?_eq_none_iff, keys_numbers]
  exact absent

/-- The numbers are kept by the vertices, so that vertices and edges tell graphs apart. -/
theorem eq_of_vertices {other : Graph} (vertices : graph.vertices = other.vertices)
    (edges : graph.edges = other.edges) : graph = other := by
  obtain ⟨_, _, ⟨entries, _⟩, numbered⟩ := graph
  obtain ⟨_, _, ⟨others, _⟩, numberedToo⟩ := other
  dsimp only at vertices edges numbered numberedToo
  subst vertices edges numbered numberedToo
  rfl

private theorem vertex_of_mem {id : ModuleId} (member : id ∈ graph.vertices) :
    graph.vertex id = (graph, graph.vertices.idxOf id) := by
  have known := index?_of_mem member
  unfold vertex
  split
  · rename_i found
    rw [Option.some.inj (found.symm.trans known)]
  · rename_i none
    rw [none] at known
    cases known

private theorem vertex_of_not_mem {id : ModuleId} (absent : id ∉ graph.vertices) :
    graph.vertex id = (graph.addVertex id (index?_of_not_mem absent), graph.vertices.length) := by
  have unknown := index?_of_not_mem absent
  unfold vertex
  split
  · rename_i found
    rw [found] at unknown
    cases unknown
  · rfl

def extended (vertices : List ModuleId) (id : ModuleId) : List ModuleId :=
  if id ∈ vertices then vertices else vertices ++ [id]

@[simp] theorem mem_extended {vertices : List ModuleId} {id x : ModuleId} :
    x ∈ extended vertices id ↔ x = id ∨ x ∈ vertices := by
  unfold extended
  split
  · rename_i member
    exact ⟨.inr, fun either => either.elim (fun same => same ▸ member) fun old => old⟩
  · simp [or_comm]

theorem extended_eq_append (vertices : List ModuleId) (id : ModuleId) :
    ∃ others, extended vertices id = vertices ++ others := by
  unfold extended
  split
  · exact ⟨[], (List.append_nil _).symm⟩
  · exact ⟨[id], rfl⟩

private theorem extended_nodup {vertices : List ModuleId} {id : ModuleId}
    (distinct : vertices.Nodup) : (extended vertices id).Nodup := by
  unfold extended
  split
  · exact distinct
  · rename_i absent
    exact distinct.append (List.nodup_singleton id) (List.disjoint_singleton.2 absent)

@[simp] theorem vertices_vertex (graph : Graph) (id : ModuleId) :
    (graph.vertex id).1.vertices = extended graph.vertices id := by
  by_cases member : id ∈ graph.vertices
  · rw [vertex_of_mem member, extended, if_pos member]
  · rw [vertex_of_not_mem member, extended, if_neg member]
    rfl

@[simp] theorem edges_vertex (graph : Graph) (id : ModuleId) :
    (graph.vertex id).1.edges = graph.edges := by
  by_cases member : id ∈ graph.vertices
  · rw [vertex_of_mem member]
  · rw [vertex_of_not_mem member]
    rfl

private theorem number_vertex (graph : Graph) (id : ModuleId) :
    (graph.vertex id).2 = (extended graph.vertices id).idxOf id := by
  by_cases member : id ∈ graph.vertices
  · rw [vertex_of_mem member, extended, if_pos member]
  · rw [vertex_of_not_mem member, extended, if_neg member, List.idxOf_append_of_notMem member,
      List.idxOf_cons_self, Nat.add_zero]

private theorem foldl_vertex (ids : List ModuleId) (graph : Graph)
    (distinct : (graph.vertices ++ ids).Nodup) :
    (ids.foldl (fun graph id => (graph.vertex id).1) graph).vertices = graph.vertices ++ ids ∧
      (ids.foldl (fun graph id => (graph.vertex id).1) graph).edges = graph.edges := by
  induction ids generalizing graph with
  | nil => exact ⟨(List.append_nil _).symm, rfl⟩
  | cons id rest ih =>
    have absent : id ∉ graph.vertices := fun member =>
      (List.nodup_append.1 distinct).2.2 id member id List.mem_cons_self rfl
    have entered : (graph.vertex id).1.vertices = graph.vertices ++ [id] := by
      rw [vertices_vertex, extended, if_neg absent]
    rw [List.append_cons, ← entered] at distinct
    obtain ⟨vertices, edges⟩ := ih _ distinct
    rw [List.foldl_cons, vertices, edges, entered, edges_vertex, ← List.append_cons]
    exact ⟨rfl, rfl⟩

theorem ofVertices_eq {ids : List ModuleId} (distinct : ids.Nodup) :
    (ofVertices ids).vertices = ids ∧ (ofVertices ids).edges = [] :=
  foldl_vertex ids empty distinct

private theorem setEdge_of_new {edge : Edge} {edges : List Edge}
    (new : ∀ other ∈ edges, ¬ (other.source = edge.source ∧ other.target = edge.target)) :
    setEdge edge edges = edges ++ [edge] := by
  induction edges with
  | nil => rfl
  | cons other rest ih =>
    have here := new other List.mem_cons_self
    have later := ih fun e inside => new e (List.mem_cons_of_mem other inside)
    simp only [setEdge, here, if_false, later, List.cons_append]

theorem link_of_mem {arc : Arc} (source : arc.source ∈ graph.vertices) :
    (graph.link arc.source arc.target arc.kind).vertices = extended graph.vertices arc.target ∧
      (graph.link arc.source arc.target arc.kind).edges =
        setEdge (arc.numbered (extended graph.vertices arc.target)) graph.edges := by
  have known := vertex_of_mem source
  have vertices : (graph.link arc.source arc.target arc.kind).vertices =
      ((graph.vertex arc.source).1.vertex arc.target).1.vertices := rfl
  have edges : (graph.link arc.source arc.target arc.kind).edges =
      setEdge ⟨(graph.vertex arc.source).2, ((graph.vertex arc.source).1.vertex arc.target).2,
        arc.kind⟩ ((graph.vertex arc.source).1.vertex arc.target).1.edges := rfl
  obtain ⟨others, grown⟩ := extended_eq_append graph.vertices arc.target
  rw [vertices, edges, known, vertices_vertex, edges_vertex, number_vertex, Arc.numbered, grown,
    List.idxOf_append_of_mem source]
  exact ⟨rfl, rfl⟩

theorem Records.numbered_inj (records : graph.Records arcs) {first second : Arc}
    (member : first ∈ arcs) {others : List ModuleId}
    (same : (first.numbered (graph.vertices ++ others)).source =
      (second.numbered (graph.vertices ++ others)).source ∧
      (first.numbered (graph.vertices ++ others)).target =
        (second.numbered (graph.vertices ++ others)).target) : first.Parallel second := by
  have source := List.mem_append_left others (records.sources first member)
  have target := List.mem_append_left others (records.targets first member)
  exact ⟨(List.idxOf_inj source).1 same.1, (List.idxOf_inj target).1 same.2⟩

/-- A link between modules that no arc joins yet adds one arc behind the others. -/
theorem Records.link (records : graph.Records arcs) {arc : Arc}
    (source : arc.source ∈ graph.vertices) (new : ∀ other ∈ arcs, ¬ other.Parallel arc) :
    (graph.link arc.source arc.target arc.kind).Records (arcs ++ [arc]) := by
  obtain ⟨others, grown⟩ := extended_eq_append graph.vertices arc.target
  obtain ⟨vertices, edges⟩ := link_of_mem source
  have kept : graph.edges = arcs.map (Arc.numbered (extended graph.vertices arc.target)) := by
    rw [records.edges, grown]
    refine List.map_congr_left fun other member => ?_
    exact (Arc.numbered_append (records.sources other member) (records.targets other member)
      others).symm
  have fresh : ∀ edge ∈ graph.edges,
      ¬ (edge.source = (arc.numbered (extended graph.vertices arc.target)).source ∧
        edge.target = (arc.numbered (extended graph.vertices arc.target)).target) := by
    rw [kept, grown]
    intro edge inside same
    obtain ⟨other, member, rfl⟩ := List.mem_map.1 inside
    exact new other member (records.numbered_inj member same)
  refine ⟨vertices ▸ extended_nodup records.distinct, ?_, ?_, ?_⟩
  · intro other member
    rw [vertices]
    rcases List.mem_append.1 member with old | added
    · exact mem_extended.2 (.inr (records.sources other old))
    · exact mem_extended.2 (.inr (List.mem_singleton.1 added ▸ source))
  · intro other member
    rw [vertices]
    rcases List.mem_append.1 member with old | added
    · exact mem_extended.2 (.inr (records.targets other old))
    · exact mem_extended.2 (.inl (List.mem_singleton.1 added ▸ rfl))
  · rw [edges, vertices, setEdge_of_new fresh, List.map_append, ← kept]
    rfl

theorem Records.mem_dependenciesOf (records : graph.Records arcs) {id target : ModuleId}
    {kind : EdgeKind} : (target, kind) ∈ graph.dependenciesOf id ↔ ⟨id, target, kind⟩ ∈ arcs := by
  by_cases member : id ∈ graph.vertices
  · simp only [dependenciesOf, index?_of_mem member, List.mem_mergeSort, List.mem_filterMap,
      List.mem_filter, records.edges, List.mem_map]
    constructor
    · rintro ⟨_, ⟨⟨arc, inside, rfl⟩, leaves⟩, reads⟩
      have source : arc.source = id :=
        (List.idxOf_inj (records.sources arc inside)).1 (of_decide_eq_true leaves)
      simp only [Arc.numbered, List.getElem?_idxOf (records.targets arc inside),
        Option.map_some, Option.some.injEq, Prod.mk.injEq] at reads
      obtain ⟨rfl, rfl⟩ := reads
      exact source ▸ inside
    · intro inside
      refine ⟨_, ⟨⟨_, inside, rfl⟩, decide_eq_true rfl⟩, ?_⟩
      simp only [Arc.numbered, List.getElem?_idxOf (records.targets _ inside), Option.map_some]
  · simp only [dependenciesOf, index?_of_not_mem member, List.not_mem_nil, false_iff]
    exact fun inside => member (records.sources _ inside)

end Graph
end BundlePlan
