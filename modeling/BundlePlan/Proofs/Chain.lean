import BundlePlan.Proofs.Layers
import BundlePlan.Proofs.ShortestWalk
import Mathlib.Data.List.Chain

/-! The explanation of a module is a shortest chain of reported dependencies from an initial module
to it, and there is one for every module found. Chains of modules and walks over their numbers are
matched through the arcs of the graph. -/
namespace BundlePlan

namespace Resolution

/-- A chain of modules from `start` to `id`, each of which is reported to depend on the next. -/
structure Chain (resolution : Resolution) (start id : ModuleId) (chain : List ModuleId) : Prop where
  head : chain.head? = some start
  last : chain.getLast? = some id
  linked : chain.IsChain fun origin target =>
    ∃ kind, (target, kind) ∈ resolution.dependenciesOf origin

end Resolution

namespace Graph

def named (graph : Graph) (walk : Walk) : List ModuleId :=
  walk.vertices.filterMap fun index => graph.vertices[index]?

private theorem named_start {graph : Graph} {id : ModuleId} (member : id ∈ graph.vertices) :
    graph.named ⟨graph.vertices.idxOf id, []⟩ = [id] := by
  simp only [named, Walk.vertices, List.reverse_singleton, List.filterMap_cons,
    List.getElem?_idxOf member, List.filterMap_nil]

private theorem named_extend {graph : Graph} {id : ModuleId} (member : id ∈ graph.vertices)
    (walk : Walk) :
    graph.named (walk.extend (graph.vertices.idxOf id)) = graph.named walk ++ [id] := by
  simp only [named, Walk.vertices, Walk.extend, List.reverse_cons, List.filterMap_append,
    List.filterMap_cons, List.getElem?_idxOf member, List.filterMap_nil]

/-- The edges that the search follows are the dependencies reported. -/
theorem Records.mem_successors {graph : Graph} {arcs : List Arc} (records : graph.Records arcs)
    {id : ModuleId} {next : Nat} :
    next ∈ graph.successors (graph.vertices.idxOf id) ↔
      ∃ target kind, (target, kind) ∈ graph.dependenciesOf id ∧
        next = graph.vertices.idxOf target := by
  simp only [successors, List.mem_reverse, List.mem_map, List.mem_filter, records.edges,
    records.mem_dependenciesOf]
  constructor
  · rintro ⟨_, ⟨⟨arc, inside, rfl⟩, leaves⟩, rfl⟩
    have source : arc.source = id :=
      (List.idxOf_inj (records.sources arc inside)).1 (of_decide_eq_true leaves)
    exact ⟨arc.target, arc.kind, source ▸ inside, rfl⟩
  · rintro ⟨target, kind, inside, rfl⟩
    exact ⟨_, ⟨⟨_, inside, rfl⟩, decide_eq_true rfl⟩, rfl⟩

end Graph

namespace Resolution

variable {resolution : Resolution} {arcs : List Arc} {start id target : ModuleId}
  {chain : List ModuleId}

private theorem Chain.single (id : ModuleId) :
    resolution.Chain id id [id] := ⟨rfl, rfl, .singleton id⟩

private theorem Chain.append (linked : resolution.Chain start id chain) {kind : EdgeKind}
    (listed : (target, kind) ∈ resolution.dependenciesOf id) :
    resolution.Chain start target (chain ++ [target]) := by
  refine ⟨?_, List.getLast?_concat, List.isChain_append.2 ⟨linked.linked, .singleton target, ?_⟩⟩
  · rw [List.head?_append, linked.head, Option.some_or]
  · intro before last after first
    rw [linked.last] at last
    obtain rfl := Option.some.inj last
    obtain rfl := Option.some.inj first
    exact ⟨kind, listed⟩

private theorem chain_of_walk (records : resolution.graph.Records arcs)
    (member : start ∈ resolution.graph.vertices) {walk : Walk}
    (walked : resolution.graph.IsWalk (resolution.graph.vertices.idxOf start) walk) :
    ∃ id ∈ resolution.graph.vertices, walk.vertex = resolution.graph.vertices.idxOf id ∧
      resolution.Chain start id (resolution.graph.named walk) ∧
      (resolution.graph.named walk).length = walk.length + 1 := by
  induction walked with
  | start =>
    rw [Graph.named_start member]
    exact ⟨start, member, rfl, .single start, rfl⟩
  | @extend walk next earlier edge ih =>
    obtain ⟨id, inside, ends, linked, size⟩ := ih
    rw [ends] at edge
    obtain ⟨target, kind, listed, rfl⟩ := records.mem_successors.1 edge
    have entered := records.targets _ (records.mem_dependenciesOf.1 listed)
    rw [Graph.named_extend entered]
    refine ⟨target, entered, rfl, linked.append listed, ?_⟩
    rw [List.length_append, List.length_singleton, size, Walk.length_extend]

/-- Every chain has grown from its start by one dependency after the other. -/
theorem Chain.induction
    {motive : ∀ {id : ModuleId} {chain : List ModuleId}, resolution.Chain start id chain → Prop}
    (single : motive (.single start))
    (append : ∀ {origin target : ModuleId} {chain : List ModuleId} {kind : EdgeKind}
      (linked : resolution.Chain start origin chain)
      (listed : (target, kind) ∈ resolution.dependenciesOf origin),
      motive linked → motive (linked.append listed))
    {id : ModuleId} {chain : List ModuleId} (linked : resolution.Chain start id chain) :
    motive linked := by
  induction chain using List.reverseRecOn generalizing id with
  | nil => cases linked.head
  | append_singleton before target ih =>
    obtain rfl : target = id := Option.some.inj (List.getLast?_concat.symm.trans linked.last)
    cases last : before.getLast? with
    | none =>
      obtain rfl := List.getLast?_eq_none_iff.1 last
      obtain rfl : target = start := Option.some.inj linked.head
      exact single
    | some origin =>
      obtain ⟨earlier, _, joined⟩ := List.isChain_append.1 linked.linked
      obtain ⟨kind, listed⟩ := joined origin last target rfl
      have first : before.head? = some start := by
        have nonempty : before ≠ [] := fun empty => by rw [empty] at last; cases last
        rw [← linked.head, List.head?_append_of_ne_nil _ nonempty]
      exact append ⟨first, last, earlier⟩ listed (ih _)

private theorem Chain.walk (records : resolution.graph.Records arcs)
    (linked : resolution.Chain start id chain) :
    ∃ walk, resolution.graph.IsWalk (resolution.graph.vertices.idxOf start) walk ∧
      walk.vertex = resolution.graph.vertices.idxOf id ∧ walk.length + 1 = chain.length := by
  induction linked using Chain.induction with
  | single => exact ⟨_, .start, rfl, rfl⟩
  | @append origin target chain kind linked listed ih =>
    obtain ⟨walk, walked, ends, size⟩ := ih
    refine ⟨walk.extend (resolution.graph.vertices.idxOf target), walked.extend ?_, rfl, ?_⟩
    · rw [ends]
      exact records.mem_successors.2 ⟨target, kind, listed, rfl⟩
    · rw [Walk.length_extend, List.length_append, List.length_singleton, size]

theorem shortest?_eq_none {walks : List Walk} : shortest? walks = none ↔ walks = [] := by
  cases walks with
  | nil => exact ⟨fun _ => rfl, fun _ => rfl⟩
  | cons walk rest =>
    refine ⟨fun none => ?_, fun empty => nomatch empty⟩
    simp only [shortest?] at none
    split at none
    · cases none
    · split at none <;> cases none

/-- Of the walks found from these modules no other is shorter, nor as short and from a lesser
module. -/
structure Preferred (find : ModuleId → Option Walk) (starts : List ModuleId) (start : ModuleId)
    (walk : Walk) : Prop where
  member : start ∈ starts
  found : find start = some walk
  least : ∀ other ∈ starts, ∀ rival, find other = some rival →
    walk.length ≤ rival.length ∧ (rival.length ≤ walk.length → ¬ other < start)

variable {find : ModuleId → Option Walk} {first : ModuleId} {starts : List ModuleId} {walk : Walk}

private theorem Preferred.behind (preferred : Preferred find starts start walk)
    (longer : ∀ own, find first = some own → walk.length < own.length) :
    Preferred find (first :: starts) start walk := by
  refine ⟨List.mem_cons_of_mem first preferred.member, preferred.found, ?_⟩
  rw [List.forall_mem_cons]
  refine ⟨fun own here => ?_, preferred.least⟩
  have less := longer own here
  exact ⟨Nat.le_of_lt less, fun tie => absurd less (Nat.not_lt.2 tie)⟩

private theorem Preferred.ahead (below : ∀ other ∈ starts, first < other)
    (own : find first = some walk)
    (shortest : ∀ other ∈ starts, ∀ rival, find other = some rival → walk.length ≤ rival.length) :
    Preferred find (first :: starts) first walk := by
  refine ⟨List.mem_cons_self, own, ?_⟩
  rw [List.forall_mem_cons]
  constructor
  · intro rival here
    obtain rfl := Option.some.inj (own.symm.trans here)
    exact ⟨Nat.le_refl _, fun _ => ModuleId.lt_irrefl first⟩
  · intro other member rival here
    refine ⟨shortest other member rival here, fun _ less => ?_⟩
    exact ModuleId.lt_irrefl first (ModuleId.lt_trans (below other member) less)

private theorem shortest?_filterMap (ascending : starts.Pairwise (· < ·))
    (found : shortest? (starts.filterMap find) = some walk) :
    ∃ start, Preferred find starts start walk := by
  induction starts generalizing walk with
  | nil => cases found
  | cons first rest ih =>
    obtain ⟨below, ascending⟩ := List.pairwise_cons.1 ascending
    cases own : find first with
    | none =>
      rw [List.filterMap_cons_none own] at found
      obtain ⟨start, preferred⟩ := ih ascending found
      exact ⟨start, preferred.behind fun direct here => nomatch own.symm.trans here⟩
    | some direct =>
      rw [List.filterMap_cons_some own, shortest?] at found
      split at found
      · rename_i nothing
        obtain rfl := Option.some.inj found
        have missed := List.filterMap_eq_nil_iff.1 (shortest?_eq_none.1 nothing)
        refine ⟨first, .ahead below own fun other member rival here => ?_⟩
        exact nomatch (missed other member).symm.trans here
      · rename_i best later
        obtain ⟨start, preferred⟩ := ih ascending later
        split at found
        · rename_i shorter
          obtain rfl := Option.some.inj found
          refine ⟨start, preferred.behind fun other here => ?_⟩
          exact Option.some.inj (own.symm.trans here) ▸ shorter
        · rename_i kept
          obtain rfl := Option.some.inj found
          refine ⟨first, .ahead below own fun other member rival here => ?_⟩
          exact Nat.le_trans (Nat.not_lt.1 kept) (preferred.least other member rival here).1

private theorem explain_of_mem
    (initially : ∀ id ∈ resolution.initial, id ∈ resolution.graph.vertices)
    (member : id ∈ resolution.graph.vertices) :
    resolution.explain id =
      (shortest? (resolution.initial.toList.filterMap fun origin =>
        resolution.graph.shortestWalk? (resolution.graph.vertices.idxOf origin)
          (resolution.graph.vertices.idxOf id))).map resolution.graph.named := by
  have found : (resolution.initial.toList.filterMap fun origin => do
      resolution.graph.shortestWalk? (← resolution.graph.index? origin)
        (resolution.graph.vertices.idxOf id)) =
      resolution.initial.toList.filterMap fun origin =>
        resolution.graph.shortestWalk? (resolution.graph.vertices.idxOf origin)
          (resolution.graph.vertices.idxOf id) := by
    refine List.filterMap_congr fun origin inside => ?_
    rw [Graph.index?_of_mem (initially origin inside)]
    rfl
  simp only [explain, Graph.index?_of_mem member, Option.bind_eq_bind, Option.bind_some] at found ⊢
  rw [found, Option.map_eq_bind]
  rfl

private theorem explain_of_not_mem (absent : id ∉ resolution.graph.vertices) :
    resolution.explain id = none := by
  simp only [explain, Graph.index?_of_not_mem absent, Option.bind_eq_bind, Option.bind_none]

theorem explain_eq_some (records : resolution.graph.Records arcs)
    (initially : ∀ id ∈ resolution.initial, id ∈ resolution.graph.vertices)
    (explained : resolution.explain id = some chain) :
    ∃ start ∈ resolution.initial, resolution.Chain start id chain ∧
      ∀ origin ∈ resolution.initial, ∀ rival, resolution.Chain origin id rival →
        chain.length ≤ rival.length ∧ (rival.length = chain.length → ¬ origin < start) := by
  have member : id ∈ resolution.graph.vertices := by
    by_contra absent
    rw [explain_of_not_mem absent] at explained
    cases explained
  rw [explain_of_mem initially member] at explained
  obtain ⟨walk, shortest, rfl⟩ := Option.map_eq_some_iff.1 explained
  obtain ⟨start, preferred⟩ := shortest?_filterMap resolution.initial.ascending shortest
  obtain ⟨walked, ends, _⟩ := Graph.shortestWalk?_eq_some preferred.found
  obtain ⟨last, inside, arrives, linked, size⟩ :=
    chain_of_walk records (initially start preferred.member) walked
  obtain rfl : last = id := (List.idxOf_inj inside).1 (arrives.symm.trans ends)
  refine ⟨start, preferred.member, linked, fun origin initial rival other => ?_⟩
  obtain ⟨along, walkedToo, endsToo, sizeToo⟩ := other.walk records
  rw [size]
  cases direct : resolution.graph.shortestWalk? (resolution.graph.vertices.idxOf origin)
      (resolution.graph.vertices.idxOf last) with
  | none => exact absurd endsToo (Graph.shortestWalk?_eq_none direct walkedToo)
  | some best =>
    obtain ⟨_, _, least⟩ := Graph.shortestWalk?_eq_some direct
    have below := least along walkedToo endsToo
    obtain ⟨less, tie⟩ := preferred.least origin initial best direct
    exact ⟨by omega, fun same => tie (by omega)⟩

theorem explain_of_chain (records : resolution.graph.Records arcs)
    (initially : ∀ id ∈ resolution.initial, id ∈ resolution.graph.vertices)
    (member : id ∈ resolution.graph.vertices) (initial : start ∈ resolution.initial)
    (linked : resolution.Chain start id chain) : (resolution.explain id).isSome = true := by
  rw [explain_of_mem initially member, Option.isSome_map, Option.isSome_iff_ne_none]
  intro nothing
  obtain ⟨walk, walked, ends, _⟩ := linked.walk records
  have missed := List.filterMap_eq_nil_iff.1 (shortest?_eq_none.1 nothing) start initial
  exact Graph.shortestWalk?_eq_none missed walked ends

end Resolution

namespace Resolver

variable {resolver : Resolver} {platform : Platform} {initial : ModuleSet} {resolution : Resolution}

theorem Accounts.chain_of_walked {id : ModuleId} {n : Nat}
    (accounts : Accounts resolver platform initial resolution.graph.vertices [] [] resolution)
    (walked : resolver.Walked platform initial n id) :
    id ∈ resolution.modules ∧ ∃ start ∈ initial, ∃ chain,
      resolution.Chain start id chain ∧ chain.length = n + 1 := by
  induction walked with
  | @start id member => exact ⟨accounts.initial_mem member, id, member, [id], .single id, rfl⟩
  | @step n id target _ needed ih =>
    obtain ⟨member, start, first, chain, linked, size⟩ := ih
    obtain ⟨plugin, kind, contributed⟩ := needs_iff.1 needed
    obtain ⟨inside, listed⟩ := accounts.recorded_of_contribution member plugin contributed
    refine ⟨inside, start, first, chain ++ [target], linked.append listed, ?_⟩
    rw [List.length_append, size, List.length_singleton]

private theorem Accounts.chain {id : ModuleId}
    (accounts : Accounts resolver platform initial resolution.graph.vertices [] [] resolution)
    (reached : resolver.Reachable platform initial id) :
    id ∈ resolution.modules ∧ ∃ start ∈ initial, ∃ chain, resolution.Chain start id chain := by
  obtain ⟨n, walked⟩ := reachable_iff_walked.1 reached
  obtain ⟨member, start, first, chain, linked, _⟩ := accounts.chain_of_walked walked
  exact ⟨member, start, first, chain, linked⟩

/-- The modules that can be explained are those found. An explanation is a shortest chain of
reported dependencies from an initial module, and from the least one of those that have a chain as
short. The search for it ends on every graph. -/
theorem explain_shortest (resolver : Resolver) (platform : Platform) (initial : ModuleSet)
    (bounded : resolver.Bounded platform initial) (id : ModuleId) :
    let result := (resolver.resolve platform initial bounded).value
    ((result.explain id).isSome = true ↔ result.contains id = true) ∧
    (∀ chain, result.explain id = some chain →
      ∃ start ∈ initial, result.Chain start id chain ∧
        ∀ origin ∈ initial, ∀ rival, result.Chain origin id rival →
          chain.length ≤ rival.length ∧ (rival.length = chain.length → ¬ origin < start)) ∧
    ∀ (graph : Graph) (goal : Nat),
      WellFounded (fun after before => graph.advance? goal before = some after) ∧
      ∀ origin, ∃ last, graph.SearchLeads goal (.start origin) last ∧
        graph.advance? goal last = none ∧
        graph.shortestWalk? origin goal = last.queue.pop?.map Prod.fst := by
  intro result
  have accounts : Accounts resolver platform initial result.graph.vertices [] [] result :=
    accounts_resolve bounded
  obtain ⟨arcs, records, _⟩ := accounts.recorded
  have same : result.initial = initial := accounts.initially
  have initially : ∀ id ∈ result.initial, id ∈ result.graph.vertices := by
    rw [same]
    exact fun id member => accounts.seeded.subset member
  refine ⟨?_, fun chain explained => ?_, fun graph goal => ⟨graph.advance?_wellFounded goal, ?_⟩⟩
  · rw [Resolution.contains, decide_eq_true_eq]
    constructor
    · intro explained
      by_contra absent
      rw [Resolution.explain_of_not_mem fun member => absent ((accounts.members id).2 member)]
        at explained
      cases explained
    · intro member
      obtain ⟨_, start, first, chain, linked⟩ := accounts.chain (accounts.mem_modules_iff.1 member)
      exact Resolution.explain_of_chain records initially ((accounts.members id).1 member)
        (same ▸ first) linked
  · rw [← same]
    exact Resolution.explain_eq_some records initially explained
  · exact fun origin => graph.searchFrom_leads goal (.start origin)

theorem explain_shortest_knot :
    ∃ bounded : knot.Bounded .linux knotStart,
      let result := (knot.resolve .linux knotStart bounded).value
      ∃ chain, result.explain extB = some chain ∧
        ∀ rival, result.Chain extA extB rival → chain.length ≤ rival.length := by
  have bounded : knot.Bounded .linux knotStart := bounded_ofCatalog _ _ _ _ _ _
  obtain ⟨known, shortest, _⟩ := explain_shortest knot .linux knotStart bounded extB
  have reached : knot.Reachable .linux knotStart extB :=
    (Reachable.start (by decide)).step knot_needs
  have member := (accounts_resolve bounded).mem_modules_iff.2 reached
  obtain ⟨chain, explained⟩ := Option.isSome_iff_exists.1 (known.2 (decide_eq_true member))
  obtain ⟨_, _, _, least⟩ := shortest chain explained
  exact ⟨bounded, chain, explained, fun rival linked => (least _ (by decide) rival linked).1⟩

end Resolver
end BundlePlan
