import BundlePlan.Proofs.Worklist
import Mathlib.Order.Bounds.Basic

/-! The outcome of resolution is the closure of the initial set under the dependency relation, and
the modules that could not be looked up are exactly the plugins in it whose lookup fails. -/
namespace BundlePlan.Resolver

variable {resolver : Resolver} {platform : Platform} {initial : ModuleSet}

namespace Accounts

variable {resolution : Resolution}

theorem recorded_of_contribution {id : ModuleId} {target : ModuleId × EdgeKind}
    (accounts : Accounts resolver platform initial resolution.graph.vertices [] [] resolution)
    (member : id ∈ resolution.modules) (plugin : resolver.isPlugin id = true)
    (contributed : target ∈ resolver.contribution platform id) :
    target.1 ∈ resolution.modules ∧ target ∈ resolution.dependenciesOf id := by
  obtain ⟨arcs, records, split⟩ := accounts.recorded
  rw [List.append_nil] at split
  have numbered : id ∈ resolution.graph.vertices := (accounts.members id).1 member
  have recorded : ⟨id, target.1, target.2⟩ ∈ arcs := by
    rw [split]
    exact mem_arcsFrom.2 ⟨numbered, plugin, contributed⟩
  exact ⟨(accounts.members target.1).2 (records.targets _ recorded),
    records.mem_dependenciesOf.2 recorded⟩

/-- What is reported of a plugin found is what following it leads to, and nothing of others. -/
theorem mem_dependenciesOf {id : ModuleId} {target : ModuleId × EdgeKind}
    (accounts : Accounts resolver platform initial resolution.graph.vertices [] [] resolution) :
    target ∈ resolution.dependenciesOf id ↔ id ∈ resolution.modules ∧
      resolver.isPlugin id = true ∧ target ∈ resolver.contribution platform id := by
  obtain ⟨arcs, records, split⟩ := accounts.recorded
  rw [List.append_nil] at split
  rw [accounts.members, Resolution.dependenciesOf, records.mem_dependenciesOf, split, mem_arcsFrom]

theorem needed_mem {id target : ModuleId}
    (accounts : Accounts resolver platform initial resolution.graph.vertices [] [] resolution)
    (member : id ∈ resolution.modules) (needed : resolver.Needs platform id target) :
    target ∈ resolution.modules := by
  obtain ⟨plugin, kind, contributed⟩ := needs_iff.1 needed
  exact (accounts.recorded_of_contribution member plugin contributed).1

theorem initial_mem {id : ModuleId}
    (accounts : Accounts resolver platform initial resolution.graph.vertices [] [] resolution)
    (member : id ∈ initial) : id ∈ resolution.modules :=
  (accounts.members id).2 (accounts.seeded.subset member)

theorem mem_modules_iff {id : ModuleId}
    (accounts : Accounts resolver platform initial resolution.graph.vertices [] [] resolution) :
    id ∈ resolution.modules ↔ resolver.Reachable platform initial id := by
  constructor
  · intro member
    exact accounts.reached id ((accounts.members id).1 member)
  · intro reached
    exact reached.of_closed (· ∈ resolution.modules) (fun _ start => accounts.initial_mem start)
      fun _ _ inside needed => accounts.needed_mem inside needed

theorem mem_unavailable_iff {id : ModuleId}
    (accounts : Accounts resolver platform initial resolution.graph.vertices [] [] resolution) :
    id ∈ resolution.unavailable ↔ id ∈ resolution.modules ∧ resolver.isPlugin id = true ∧
      ∃ failure, (resolver.lookup id).value = .error failure :=
  (accounts.unavailable id).trans (and_congr_left fun _ => (accounts.members id).symm)

end Accounts

/-- The sets that contain the initial modules and all that their members need. -/
def ClosedSets (resolver : Resolver) (platform : Platform) (initial : ModuleSet) :
    Set (Set ModuleId) :=
  {set | (∀ id ∈ initial, id ∈ set) ∧
    ∀ id ∈ set, ∀ target, resolver.Needs platform id target → target ∈ set}

private theorem isLeast_reachable :
    IsLeast (resolver.ClosedSets platform initial)
      {id | resolver.Reachable platform initial id} := by
  constructor
  · exact ⟨fun id start => .start start, fun _ reached _ needed => Reachable.step reached needed⟩
  · rintro set ⟨initially, closed⟩ id reached
    exact reached.of_closed (· ∈ set) initially
      fun origin target inside needed => closed origin inside target needed

/-- Resolution finds the modules reached from the initial ones and no others, which is the least
closed set. What could not be looked up are the plugins found whose lookup fails; they keep their
place and bring in their platform row. -/
theorem resolve_closure (resolver : Resolver) (platform : Platform) (initial : ModuleSet)
    (finite : {id | resolver.Reachable platform initial id}.Finite) :
    let result := (resolver.resolve platform initial (bounded_iff_finite.2 finite)).value
    (∀ id, id ∈ result.modules ↔ resolver.Reachable platform initial id) ∧
    IsLeast (resolver.ClosedSets platform initial) {id | id ∈ result.modules} ∧
    (∀ id, id ∈ result.unavailable ↔ id ∈ result.modules ∧ resolver.isPlugin id = true ∧
      ∃ failure, (resolver.lookup id).value = .error failure) ∧
    ∀ id ∈ result.unavailable, ∀ target ∈ resolver.table.extra id platform,
      target ∈ result.modules ∧ (target, .platform) ∈ result.dependenciesOf id := by
  intro result
  have accounts : Accounts resolver platform initial result.graph.vertices [] [] result :=
    accounts_resolve (bounded_iff_finite.2 finite)
  have reached (id : ModuleId) : id ∈ result.modules ↔ resolver.Reachable platform initial id :=
    accounts.mem_modules_iff
  refine ⟨reached, ?_, fun id => accounts.mem_unavailable_iff, ?_⟩
  · have same : {id | id ∈ result.modules} = {id | resolver.Reachable platform initial id} :=
      Set.ext reached
    rw [same]
    exact isLeast_reachable
  · intro id member target listed
    obtain ⟨inside, plugin, failure, failed⟩ := accounts.mem_unavailable_iff.1 member
    have contributed : (target, .platform) ∈ resolver.contribution platform id := by
      rw [contribution, failed, mem_labelled]
      exact ⟨.inr listed, (if_neg List.not_mem_nil).symm⟩
    exact accounts.recorded_of_contribution inside plugin contributed

def extA : ModuleId := ⟨"ext.a", by decide⟩

def extB : ModuleId := ⟨"ext.b", by decide⟩

def extC : ModuleId := ⟨"ext.c", by decide⟩

def driver : ModuleId := ⟨"driver", by decide⟩

def ext : ModuleId := ⟨"ext", by decide⟩

/-- Two plugins that need each other, and one that is of no use but has a platform row. -/
def knot : Resolver :=
  let catalog := ((Catalog.empty.declare extA [extB]).declareQuery extB [extA]).declareMalformed
    extC "no module"
  ofCatalog catalog ⟨∅, []⟩ (PlatformTable.empty.insert extC .linux [driver]) (some ext)

def knotStart : ModuleSet := .ofList [extC, extA]

theorem knot_needs : knot.Needs .linux extA extB := .declared (by decide) _ rfl (by decide)

theorem resolve_closure_knot :
    ∃ finite : {id | knot.Reachable .linux knotStart id}.Finite,
      let result := (knot.resolve .linux knotStart (bounded_iff_finite.2 finite)).value
      extB ∈ result.modules ∧ driver ∈ result.modules ∧ extC ∈ result.unavailable := by
  have finite : {id | knot.Reachable .linux knotStart id}.Finite :=
    bounded_iff_finite.1 (bounded_ofCatalog _ _ _ _ _ _)
  obtain ⟨modules, _, unavailable, rows⟩ := resolve_closure knot .linux knotStart finite
  have failed := (unavailable extC).2 ⟨(modules _).2 (.start (by decide)), by decide, _, rfl⟩
  refine ⟨finite, (modules _).2 ?_, (rows _ failed _ (by decide)).1, failed⟩
  exact (Reachable.start (by decide)).step knot_needs

end BundlePlan.Resolver
