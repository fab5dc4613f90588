import BundlePlan.Proofs.Chain

/-! Distances across runs. The explanation of a module has one link for each step that the module
is away from the initial modules; the steps from two initial sets are the steps from one or the
other; and they are still there where more is needed or more is given. -/
namespace BundlePlan.Resolver

variable {resolver : Resolver} {platform : Platform} {initial first second : ModuleSet}
  {resolution : Resolution} {id : ModuleId} {m n : Nat}

theorem Walked.mono {larger : Resolver} {more : ModuleSet}
    (initially : ∀ id ∈ initial, id ∈ more)
    (needs : ∀ id target, resolver.Needs platform id target → larger.Needs platform id target)
    (walked : resolver.Walked platform initial n id) : larger.Walked platform more n id := by
  induction walked with
  | start member => exact .start (initially _ member)
  | step _ needed ih => exact ih.step (needs _ _ needed)

theorem walked_union : resolver.Walked platform (first.union second) n id ↔
    resolver.Walked platform first n id ∨ resolver.Walked platform second n id := by
  constructor
  · intro walked
    induction walked with
    | start member =>
      rcases ModuleSet.mem_union.1 member with here | there
      · exact .inl (.start here)
      · exact .inr (.start there)
    | step _ needed ih =>
      rcases ih with walked | walked
      · exact .inl (walked.step needed)
      · exact .inr (walked.step needed)
  · intro either
    rcases either with walked | walked
    · exact walked.mono (fun _ member => ModuleSet.mem_union.2 (.inl member)) fun _ _ needed => needed
    · exact walked.mono (fun _ member => ModuleSet.mem_union.2 (.inr member)) fun _ _ needed => needed

theorem Distance.union (here : resolver.Distance platform first id m)
    (there : resolver.Distance platform second id n) :
    resolver.Distance platform (first.union second) id (min m n) := by
  have walks : {n | resolver.Walked platform (first.union second) n id} =
      {n | resolver.Walked platform first n id} ∪ {n | resolver.Walked platform second n id} :=
    Set.ext fun n => walked_union
  unfold Distance at here there ⊢
  rw [walks]
  exact here.union there

theorem Distance.union_left (here : resolver.Distance platform first id n)
    (unwalked : ∀ n, ¬ resolver.Walked platform second n id) :
    resolver.Distance platform (first.union second) id n := by
  refine ⟨walked_union.2 (.inl here.1), fun m walked => ?_⟩
  exact here.2 ((walked_union.1 walked).resolve_right (unwalked m))

theorem Distance.union_right (there : resolver.Distance platform second id n)
    (unwalked : ∀ n, ¬ resolver.Walked platform first n id) :
    resolver.Distance platform (first.union second) id n := by
  refine ⟨walked_union.2 (.inr there.1), fun m walked => ?_⟩
  exact there.2 ((walked_union.1 walked).resolve_left (unwalked m))

theorem distance_or_not_walked (resolver : Resolver) (platform : Platform) (initial : ModuleSet)
    (id : ModuleId) : (∃ n, resolver.Distance platform initial id n) ∨
      ∀ n, ¬ resolver.Walked platform initial n id := by
  by_cases some : ∃ n, resolver.Walked platform initial n id
  · obtain ⟨n, walked⟩ := some
    obtain ⟨m, _, distance⟩ := walked.exists_distance
    exact .inl ⟨m, distance⟩
  · exact .inr (not_exists.1 some)

namespace Accounts

private theorem initial_vertices
    (accounts : Accounts resolver platform initial resolution.graph.vertices [] [] resolution) :
    ∀ id ∈ resolution.initial, id ∈ resolution.graph.vertices := by
  intro id member
  rw [accounts.initially] at member
  exact accounts.seeded.subset member

private theorem walked_of_chain {start : ModuleId} {chain : List ModuleId}
    (accounts : Accounts resolver platform initial resolution.graph.vertices [] [] resolution)
    (member : start ∈ initial) (linked : resolution.Chain start id chain) :
    ∃ n, chain.length = n + 1 ∧ resolver.Walked platform initial n id := by
  induction linked using Resolution.Chain.induction with
  | single => exact ⟨0, rfl, .start member⟩
  | append linked listed ih =>
    obtain ⟨n, size, walked⟩ := ih
    obtain ⟨_, plugin, contributed⟩ := accounts.mem_dependenciesOf.1 listed
    refine ⟨n + 1, ?_, walked.step (needs_iff.2 ⟨plugin, _, contributed⟩)⟩
    rw [List.length_append, size, List.length_singleton]

theorem distance_of_explain {chain : List ModuleId}
    (accounts : Accounts resolver platform initial resolution.graph.vertices [] [] resolution)
    (explained : resolution.explain id = some chain) :
    ∃ n, chain.length = n + 1 ∧ resolver.Distance platform initial id n := by
  obtain ⟨arcs, records, _⟩ := accounts.recorded
  obtain ⟨start, member, linked, shortest⟩ :=
    Resolution.explain_eq_some records accounts.initial_vertices explained
  rw [accounts.initially] at member shortest
  obtain ⟨n, size, walked⟩ := accounts.walked_of_chain member linked
  refine ⟨n, size, walked, ?_⟩
  intro m other
  obtain ⟨_, origin, initially, rival, along, sizeToo⟩ := accounts.chain_of_walked other
  have least := (shortest origin initially rival along).1
  omega

theorem exists_explain
    (accounts : Accounts resolver platform initial resolution.graph.vertices [] [] resolution)
    (walked : resolver.Walked platform initial n id) :
    ∃ chain, resolution.explain id = some chain := by
  obtain ⟨arcs, records, _⟩ := accounts.recorded
  obtain ⟨member, start, initially, chain, linked, _⟩ := accounts.chain_of_walked walked
  apply Option.isSome_iff_exists.1
  apply Resolution.explain_of_chain records accounts.initial_vertices
    ((accounts.members id).1 member) _ linked
  rw [accounts.initially]
  exact initially

theorem length_explain
    (accounts : Accounts resolver platform initial resolution.graph.vertices [] [] resolution)
    (distance : resolver.Distance platform initial id n) :
    (resolution.explain id).map List.length = some (n + 1) := by
  obtain ⟨chain, explained⟩ := accounts.exists_explain distance.1
  obtain ⟨m, size, distanceToo⟩ := accounts.distance_of_explain explained
  have same : m = n := distanceToo.unique distance
  rw [explained, Option.map_some, size, same]

theorem explain_eq_none
    (accounts : Accounts resolver platform initial resolution.graph.vertices [] [] resolution)
    (unwalked : ∀ n, ¬ resolver.Walked platform initial n id) : resolution.explain id = none := by
  cases explained : resolution.explain id with
  | none => rfl
  | some chain =>
    obtain ⟨n, _, distance⟩ := accounts.distance_of_explain explained
    exact absurd distance.1 (unwalked n)

end Accounts
end BundlePlan.Resolver
