import BundlePlan.Proofs.Dependencies
import BundlePlan.Proofs.Locality

/-! The edges of the graph while modules are resolved. A step adds an edge behind the others or
leaves them alone, so what was once reported of a module stays reported, and in the end exactly the
declared and the extra dependencies of the plugins found are. -/
namespace BundlePlan

namespace Graph

variable {earlier middle later graph : Graph} {arcs more : List Arc} {id : ModuleId}

/-- All numbers and all edges are kept; vertices and edges have only been added behind them. -/
structure Extends (later earlier : Graph) : Prop where
  vertices : earlier.vertices <+: later.vertices
  edges : earlier.edges <+: later.edges

private theorem Extends.refl (graph : Graph) :
    graph.Extends graph := ⟨List.prefix_rfl, List.prefix_rfl⟩

private theorem Extends.trans (second : later.Extends middle) (first : middle.Extends earlier) :
    later.Extends earlier :=
  ⟨first.vertices.trans second.vertices, first.edges.trans second.edges⟩

private theorem Records.extends (records : earlier.Records arcs)
    (recordsToo : later.Records (arcs ++ more)) (grown : earlier.vertices <+: later.vertices) :
    later.Extends earlier := by
  refine ⟨grown, ?_⟩
  obtain ⟨others, vertices⟩ := grown
  have kept : arcs.map (Arc.numbered later.vertices) = earlier.edges := by
    rw [records.edges, ← vertices]
    refine List.map_congr_left fun arc member => ?_
    exact Arc.numbered_append (records.sources arc member) (records.targets arc member) others
  rw [recordsToo.edges, List.map_append, kept]
  exact List.prefix_append _ _

private theorem Extends.mem_dependenciesOf {target : ModuleId × EdgeKind}
    (extended : later.Extends earlier) (reported : target ∈ earlier.dependenciesOf id) :
    target ∈ later.dependenciesOf id := by
  by_cases member : id ∈ earlier.vertices
  · obtain ⟨others, vertices⟩ := extended.vertices
    have same : later.vertices.idxOf id = earlier.vertices.idxOf id := by
      rw [← vertices, List.idxOf_append_of_mem member]
    simp only [dependenciesOf, index?_of_mem member,
      index?_of_mem (extended.vertices.subset member), same, List.mem_mergeSort,
      List.mem_filterMap, List.mem_filter, Option.map_eq_some_iff] at reported ⊢
    obtain ⟨edge, ⟨recorded, leaves⟩, name, numbered, labelled⟩ := reported
    refine ⟨edge, ⟨extended.edges.subset recorded, leaves⟩, name, ?_, labelled⟩
    rw [← vertices]
    exact List.getElem?_append_left (List.getElem?_eq_some_iff.1 numbered).1 ▸ numbered
  · simp only [dependenciesOf, index?_of_not_mem member, List.not_mem_nil] at reported

private theorem Records.dependenciesOf_ascending (records : graph.Records arcs)
    (apart : arcs.Pairwise fun first second => ¬ first.Parallel second) (id : ModuleId) :
    (graph.dependenciesOf id).Pairwise fun a b => a.1 < b.1 := by
  let leaving := (arcs.filter fun arc => arc.source = id).map fun arc => (arc.target, arc.kind)
  have distinct : leaving.Pairwise fun a b => a.1 ≠ b.1 := by
    refine List.pairwise_map.2 (List.Pairwise.imp_of_mem ?_ (apart.filter _))
    intro first second member inside different same
    have source := of_decide_eq_true (List.mem_filter.1 member).2
    have sourceToo := of_decide_eq_true (List.mem_filter.1 inside).2
    exact different ⟨source.trans sourceToo.symm, same⟩
  have sorted : (leaving.mergeSort fun a b => !decide (b.1 < a.1)).Pairwise fun a b =>
      (!decide (b.1 < a.1)) = true := by
    refine List.pairwise_mergeSort (fun a b c first second => ?_) (fun a b => ?_) leaving
    · simp only [ModuleId.lt_iff, Bool.not_eq_true', decide_eq_false_iff_not, String.not_lt]
        at first second ⊢
      exact String.le_trans first second
    · simp only [ModuleId.lt_iff, Bool.or_eq_true, Bool.not_eq_true', decide_eq_false_iff_not,
        String.not_lt]
      exact String.le_total a.1.text b.1.text
  have different := (List.mergeSort_perm leaving fun a b => !decide (b.1 < a.1)).symm.pairwise
    distinct Ne.symm
  rw [records.dependenciesOf_eq id]
  refine (sorted.and different).imp ?_
  rintro a b ⟨notAbove, apart⟩
  simp only [Bool.not_eq_true', decide_eq_false_iff_not] at notAbove
  by_contra notBelow
  exact apart (ModuleId.eq_of_not_lt notBelow notAbove)

end Graph

namespace Resolver
open Worklist

variable {resolver : Resolver} {platform : Platform} {initial : ModuleSet} {id : ModuleId}

/-- What these lookups say a module needs, asked for outside of resolution: a module that cannot be
looked up has no dependencies. -/
def registered (resolver : Resolver) (id : ModuleId) : Logged ModuleSet := do
  match ← resolver.lookup id with
  | .ok declaration => declaration.evaluate id
  | .error failure =>
    Logged.report (.withoutDependencies failure)
    return ∅

private theorem registered_of_catalog {catalog : Catalog} {disk : Disk}
    (looksUp : resolver.lookup = catalog.declaration disk) (id : ModuleId) :
    resolver.registered id = catalog.dependencies disk id := by
  unfold registered
  rw [looksUp]
  rfl

private theorem value_registered (resolver : Resolver) (id : ModuleId) :
    (resolver.registered id).value = declaredBy (resolver.lookup id).value := by
  unfold registered
  rw [Logged.value_bind]
  cases (resolver.lookup id).value with
  | ok declaration => exact declaration.value_evaluate id
  | error failure => rfl

def Worklist.resolution : Worklist → Resolution
  | head resolution _ => resolution
  | inside resolution _ _ _ => resolution

namespace Accounts

variable {resolution : Resolution} {followed waiting queue found : List ModuleId} {arc : Arc}
  {left : List Arc}

private theorem next_extends
    (accounts : Accounts resolver platform initial followed waiting (arc :: left) resolution) :
    (resolution.graph.link arc.source arc.target arc.kind).Extends resolution.graph := by
  obtain ⟨arcs, records, split⟩ := accounts.recorded
  obtain ⟨more, recordsToo, splitToo⟩ := accounts.next_recorded
  rw [← split, List.append_cons] at splitToo
  obtain rfl := List.append_cancel_right splitToo
  refine records.extends recordsToo ?_
  rw [accounts.next_vertices]
  obtain ⟨others, grown⟩ := Graph.extended_eq_append resolution.graph.vertices arc.target
  rw [grown]
  exact List.prefix_append _ _

private theorem ascending
    (accounts : Accounts resolver platform initial followed waiting left resolution)
    (id : ModuleId) : (resolution.dependenciesOf id).Pairwise fun a b => a.1 < b.1 := by
  obtain ⟨arcs, records, split⟩ := accounts.recorded
  have apart : (resolver.arcsFrom platform followed).Pairwise fun first second =>
      ¬ first.Parallel second := arcsFrom_distinct accounts.followed_nodup
  rw [← split] at apart
  exact records.dependenciesOf_ascending (List.pairwise_append.1 apart).1 id

end Accounts

private theorem Worklist.Accounted.accounts {state : Worklist}
    (accounted : state.Accounted resolver platform initial) : ∃ followed waiting left,
      Accounts resolver platform initial followed waiting left state.resolution := by
  cases state with
  | head resolution queue =>
    obtain ⟨followed, accounts⟩ := accounted
    exact ⟨followed, queue, [], accounts⟩
  | inside resolution left queue found =>
    obtain ⟨followed, accounts⟩ := accounted
    exact ⟨followed, queue ++ found, left, accounts⟩

/-- One step: the graph stays what it is or is given one edge more. -/
theorem Worklist.Accounted.extends {before after : Worklist}
    (accounted : before.Accounted resolver platform initial)
    (step : before.next? resolver platform = some after) :
    after.resolution.graph.Extends before.resolution.graph := by
  match before, accounted with
  | head resolution [], _ => cases step
  | head resolution (first :: rest), _ =>
    cases step
    exact .refl _
  | inside resolution (arc :: left) queue found, ⟨followed, accounts⟩ =>
    cases step
    simpa [Worklist.resolution] using accounts.next_extends
  | inside resolution [] (id :: queue) found, _ =>
    by_cases plugin : resolver.isPlugin id = true
    · simp only [next?, plugin, if_true, Option.some.injEq] at step
      subst step
      simpa [Worklist.resolution] using Graph.Extends.refl _
    · simp only [next?, plugin, Bool.false_eq_true, if_false, Option.some.injEq] at step
      subst step
      exact .refl _
  | inside resolution [] [] found, _ =>
    cases step
    exact .refl _

private theorem Worklist.extends_of_leads {before after : Worklist}
    (earlier : Leads resolver platform (seed initial) before)
    (leads : Leads resolver platform before after) :
    after.resolution.graph.Extends before.resolution.graph := by
  induction leads with
  | refl => exact .refl _
  | tail between step ih => exact ((accounted (earlier.trans between)).extends step).trans ih

/-- Of a plugin found exactly what it is registered with and what its platform row lists is told,
in ascending order and once, as declared if it is registered with it; of any other module nothing
is. While modules are resolved, what is reported stays so to the end, under its number and kind. -/
theorem dependenciesOf_exact (resolver : Resolver) (platform : Platform) (initial : ModuleSet)
    (bounded : resolver.Bounded platform initial) :
    let result := (resolver.resolve platform initial bounded).value
    (∀ id ∈ result.modules, resolver.isPlugin id = true →
      (result.dependenciesOf id).Pairwise (fun a b => a.1 < b.1) ∧
      ∀ target kind, (target, kind) ∈ result.dependenciesOf id ↔
        (target ∈ (resolver.registered id).value ∨ target ∈ resolver.table.extra id platform) ∧
          (kind = .declared ↔ target ∈ (resolver.registered id).value)) ∧
    (∀ id, ¬ (id ∈ result.modules ∧ resolver.isPlugin id = true) → result.dependenciesOf id = []) ∧
    (∀ (catalog : Catalog) disk, resolver.lookup = catalog.declaration disk →
      ∀ id, resolver.registered id = catalog.dependencies disk id) ∧
    ∀ before after, Leads resolver platform (seed initial) before →
      Leads resolver platform before after →
      Leads resolver platform after (head result []) ∧
      after.resolution.graph.Extends before.resolution.graph ∧
      ∀ id, (∀ target ∈ before.resolution.dependenciesOf id,
          target ∈ after.resolution.dependenciesOf id) ∧
        (after.resolution.dependenciesOf id).Pairwise fun a b => a.1 < b.1 := by
  intro result
  have accounts : Accounts resolver platform initial result.graph.vertices [] [] result :=
    accounts_resolve bounded
  refine ⟨fun id member plugin => ⟨accounts.ascending id, fun target kind => ?_⟩,
    fun id other => ?_, fun catalog disk looksUp => registered_of_catalog looksUp,
    fun before after earlier leads => ?_⟩
  · rw [accounts.mem_dependenciesOf, contribution, mem_labelled, value_registered]
    by_cases declared : target ∈ declaredBy (resolver.lookup id).value
    · simp [member, plugin, declared]
    · cases kind <;> simp [member, plugin, declared]
  · rw [accounts.dependenciesOf_eq, if_neg other]
  · have extended := extends_of_leads earlier leads
    refine ⟨leads_of_stopped (resolve_leads resolver platform initial bounded) rfl
      (earlier.trans leads), extended, fun id => ⟨fun target => extended.mem_dependenciesOf, ?_⟩⟩
    obtain ⟨_, _, _, accounts⟩ := (accounted (earlier.trans leads)).accounts
    exact accounts.ascending id

/-- A plugin that needs itself and names a module that its platform row names too. -/
def tangled : Catalog := Catalog.empty.declare extA [extB, extA]

def tangle : Resolver :=
  ofCatalog tangled ⟨∅, []⟩ (PlatformTable.empty.insert extA .linux [driver, extB])
    (some ext)

theorem dependenciesOf_exact_tangle :
    ∃ bounded : tangle.Bounded .linux (.ofList [extA]),
      let result := (tangle.resolve .linux (.ofList [extA]) bounded).value
      (extA, .declared) ∈ result.dependenciesOf extA ∧
      (extB, .declared) ∈ result.dependenciesOf extA ∧
      (extB, .platform) ∉ result.dependenciesOf extA ∧
      (driver, .platform) ∈ result.dependenciesOf extA ∧ result.dependenciesOf driver = [] := by
  have bounded : tangle.Bounded .linux (.ofList [extA]) := bounded_ofCatalog _ _ _ _ _ _
  obtain ⟨reported, none, registers, _⟩ :=
    dependenciesOf_exact tangle .linux (.ofList [extA]) bounded
  have member := (accounts_resolve bounded).initial_mem (by decide : extA ∈ ModuleSet.ofList [extA])
  obtain ⟨_, exactly⟩ := reported extA member (by decide)
  have names : (tangle.registered extA).value = .ofList [extA, extB] := by
    rw [registers tangled ⟨∅, []⟩ rfl extA]
    decide
  have row : tangle.table.extra extA .linux = .ofList [driver, extB] := by decide
  rw [names, row] at exactly
  refine ⟨bounded, (exactly _ _).2 (by decide), (exactly _ _).2 (by decide), fun both => ?_,
    (exactly _ _).2 (by decide), none driver fun both => absurd both.2 (by decide)⟩
  exact absurd ((exactly _ _).1 both) (by decide)

end Resolver
end BundlePlan
