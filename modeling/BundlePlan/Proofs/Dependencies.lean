import BundlePlan.Proofs.Closure

/-! What is reported of a module, as a list: of a plugin found it is what following it leads to, in
ascending order, and of any other module nothing. -/
namespace BundlePlan

theorem Graph.Records.dependenciesOf_eq {graph : Graph} {arcs : List Arc}
    (records : graph.Records arcs) (id : ModuleId) : graph.dependenciesOf id =
      ((arcs.filter fun arc => arc.source = id).map fun arc => (arc.target, arc.kind)).mergeSort
        fun a b => !(decide (b.1 < a.1)) := by
  by_cases member : id ∈ graph.vertices
  · have leaving : (graph.edges.filter fun edge => edge.source = graph.vertices.idxOf id) =
        (arcs.filter fun arc => arc.source = id).map (Arc.numbered graph.vertices) := by
      rw [records.edges, List.filter_map]
      apply congrArg (List.map _)
      apply List.filter_congr
      intro arc inside
      exact decide_eq_decide.2 (List.idxOf_inj (records.sources arc inside))
    have named : ∀ arc ∈ arcs.filter fun arc => arc.source = id,
        (graph.vertices[(arc.numbered graph.vertices).target]?).map
          (fun target => (target, (arc.numbered graph.vertices).kind)) =
        some (arc.target, arc.kind) := by
      intro arc inside
      have target := records.targets arc (List.mem_of_mem_filter inside)
      simp only [Arc.numbered, List.getElem?_idxOf target, Option.map_some]
    simp only [dependenciesOf, index?_of_mem member, leaving, List.filterMap_map,
      Function.comp_def]
    rw [List.filterMap_congr named, List.filterMap_eq_map']
  · have none : (arcs.filter fun arc => arc.source = id) = [] := by
      apply List.filter_eq_nil_iff.2
      intro arc inside same
      exact member (of_decide_eq_true same ▸ records.sources arc inside)
    simp only [dependenciesOf, index?_of_not_mem member, none, List.map_nil, List.mergeSort_nil]

namespace Resolver

variable {resolver : Resolver} {platform : Platform} {initial : ModuleSet}
  {resolution : Resolution} {followed : List ModuleId} {id : ModuleId}

private theorem filter_outgoing (id : ModuleId) :
    (resolver.outgoing platform id).filter (fun arc => arc.source = id) =
      resolver.outgoing platform id := by
  apply List.filter_eq_self.2
  intro arc member
  exact decide_eq_true (mem_outgoing.1 member).1

private theorem filter_arcsFrom_of_not_mem (absent : id ∉ followed) :
    (resolver.arcsFrom platform followed).filter (fun arc => arc.source = id) = [] := by
  apply List.filter_eq_nil_iff.2
  intro arc member same
  exact absent (of_decide_eq_true same ▸ (mem_arcsFrom.1 member).1)

private theorem filter_arcsFrom (distinct : followed.Nodup) (member : id ∈ followed)
    (plugin : resolver.isPlugin id = true) :
    (resolver.arcsFrom platform followed).filter (fun arc => arc.source = id) =
      resolver.outgoing platform id := by
  obtain ⟨before, after, rfl⟩ := List.append_of_mem member
  obtain ⟨_, last, apart⟩ := List.nodup_append.1 distinct
  have earlier : id ∉ before := fun inside => apart id inside id List.mem_cons_self rfl
  have later : id ∉ after := (List.nodup_cons.1 last).1
  rw [List.append_cons, arcsFrom_append, arcsFrom_append, arcsFrom_plugin plugin,
    List.filter_append, List.filter_append, filter_arcsFrom_of_not_mem earlier, filter_outgoing,
    filter_arcsFrom_of_not_mem later, List.nil_append, List.append_nil]

private theorem contribution_ascending (id : ModuleId) :
    (resolver.contribution platform id).Pairwise fun a b => a.1 < b.1 := by
  unfold contribution labelled
  rw [List.pairwise_map]
  exact ModuleSet.ascending _

theorem Accounts.dependenciesOf_eq
    (accounts : Accounts resolver platform initial resolution.graph.vertices [] [] resolution)
    (id : ModuleId) : resolution.dependenciesOf id =
      if id ∈ resolution.modules ∧ resolver.isPlugin id = true
      then resolver.contribution platform id else [] := by
  split
  · rename_i found
    obtain ⟨arcs, records, split⟩ := accounts.recorded
    rw [List.append_nil] at split
    have leaving : (arcs.filter fun arc => arc.source = id) = resolver.outgoing platform id := by
      rw [split]
      exact filter_arcsFrom accounts.followed_nodup ((accounts.members id).1 found.1) found.2
    have plain : ((resolver.outgoing platform id).map fun arc => (arc.target, arc.kind)) =
        resolver.contribution platform id := by
      simp only [outgoing, List.map_map, Function.comp_def, Prod.mk.eta, List.map_id']
    rw [Resolution.dependenciesOf, records.dependenciesOf_eq, leaving, plain]
    apply List.mergeSort_of_pairwise
    refine (contribution_ascending id).imp fun {a b} below => ?_
    have notAbove : ¬ b.1 < a.1 := fun above =>
      ModuleId.lt_irrefl a.1 (ModuleId.lt_trans below above)
    simp [notAbove]
  · rename_i other
    apply List.eq_nil_iff_forall_not_mem.2
    intro target listed
    obtain ⟨member, plugin, _⟩ := accounts.mem_dependenciesOf.1 listed
    exact other ⟨member, plugin⟩

end Resolver
end BundlePlan
