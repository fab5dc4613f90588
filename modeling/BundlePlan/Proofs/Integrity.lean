import BundlePlan.Proofs.Edges

/-! The set of modules, their numbers, the edges and the two queues at every moment of resolution.
They tell of the same modules between any two steps; only while a dependency is recorded is its
target in the graph already and not yet in the set. What was put into the queue and what was taken
from it is kept as the history of the run. -/
namespace BundlePlan

namespace Graph

variable {graph : Graph} {arcs : List Arc}

private theorem Records.edges_apart (records : graph.Records arcs)
    (apart : arcs.Pairwise fun first second => ¬ first.Parallel second) :
    graph.edges.Pairwise fun first second =>
      ¬ (first.source = second.source ∧ first.target = second.target) := by
  rw [records.edges]
  refine List.pairwise_map.2 (apart.imp_of_mem fun {first second} member _ different same => ?_)
  exact different ⟨(List.idxOf_inj (records.sources first member)).1 same.1,
    (List.idxOf_inj (records.targets first member)).1 same.2⟩

end Graph

namespace Resolver
open Worklist

namespace Worklist

/-- The modules waiting to be followed, in this round and in the next one. -/
def pending : Worklist → List ModuleId
  | head _ queue => queue
  | inside _ _ queue found => queue ++ found

def left : Worklist → List Arc
  | head _ _ => []
  | inside _ left _ _ => left

def takes : Worklist → List ModuleId
  | inside _ [] (id :: _) _ => [id]
  | _ => []

/-- What the next step puts into the queue of the next round. -/
def puts : Worklist → List ModuleId
  | inside resolution (arc :: _) _ _ => if arc.target ∈ resolution.modules then [] else [arc.target]
  | _ => []

/-- A moment of the run from these initial modules, together with all that was put into the queue
until then and all that was taken from it, in order. -/
inductive History (resolver : Resolver) (platform : Platform) (initial : ModuleSet) :
    List ModuleId → List ModuleId → Worklist → Prop
  | start : History resolver platform initial initial.toList [] (seed initial)
  | step {queued taken : List ModuleId} {before after : Worklist}
      (history : History resolver platform initial queued taken before)
      (next : before.next? resolver platform = some after) :
      History resolver platform initial (queued ++ before.puts) (taken ++ before.takes) after

/-- The set, the numbers, the edges and the queues tell of the same modules. -/
structure Coherent (resolver : Resolver) (queued taken : List ModuleId) (state : Worklist) :
    Prop where
  keys : ∀ id, id ∈ state.resolution.graph.numbers.keys ↔ id ∈ state.resolution.modules
  numbers : ∀ id n, state.resolution.graph.index? id = some n ↔
    state.resolution.graph.vertices[n]? = some id
  /-- The numbers in use are those below their count. -/
  gapless : state.resolution.graph.vertices.length = state.resolution.graph.numbers.size
  counted : state.resolution.graph.numbers.size = state.resolution.modules.size
  single : state.resolution.graph.edges.Pairwise fun first second =>
    ¬ (first.source = second.source ∧ first.target = second.target)
  sources : ∀ edge ∈ state.resolution.graph.edges, ∃ id ∈ taken, resolver.isPlugin id = true ∧
    state.resolution.graph.index? id = some edge.source
  targets : ∀ edge ∈ state.resolution.graph.edges, ∃ id,
    state.resolution.graph.index? id = some edge.target
  waiting : queued = taken ++ state.pending
  once : queued.Nodup
  known : ∀ id ∈ queued, id ∈ state.resolution.modules
  initial : ∀ id ∈ state.resolution.initial, id ∈ state.resolution.modules
  unavailable : ∀ id ∈ state.resolution.unavailable, id ∈ state.resolution.modules
  /-- Between the link to a target and its entry into the set no other module differs. -/
  halfway : ∀ arc later, state.left = arc :: later → ∀ id,
    id ∈ (state.resolution.graph.link arc.source arc.target arc.kind).numbers.keys ↔
      id = arc.target ∨ id ∈ state.resolution.modules

end Worklist

variable {resolver : Resolver} {platform : Platform} {initial : ModuleSet} {state : Worklist}
  {queued taken : List ModuleId}

private theorem Worklist.History.leads
    (history : History resolver platform initial queued taken state) :
    Leads resolver platform (seed initial) state := by
  induction history with
  | start => exact .refl
  | step _ next ih => exact ih.tail next

private theorem Worklist.exists_history (leads : Leads resolver platform (seed initial) state) :
    ∃ queued taken, History resolver platform initial queued taken state := by
  induction leads with
  | refl => exact ⟨_, _, .start⟩
  | tail _ next ih =>
    obtain ⟨queued, taken, history⟩ := ih
    exact ⟨_, _, history.step next⟩

private theorem Worklist.next?_follow (resolver : Resolver) (platform : Platform)
    (resolution : Resolution) (id : ModuleId) (queue found : List ModuleId) :
    ∃ asked left, asked.graph = resolution.graph ∧
      (inside resolution [] (id :: queue) found).next? resolver platform =
        some (inside asked left queue found) := by
  by_cases plugin : resolver.isPlugin id = true
  · exact ⟨_, _, graph_answer id (resolver.lookup id).value, if_pos plugin⟩
  · exact ⟨resolution, [], rfl, if_neg plugin⟩

private theorem Worklist.pending_next {before after : Worklist}
    (next : before.next? resolver platform = some after) :
    before.pending ++ before.puts = before.takes ++ after.pending := by
  match before with
  | head resolution [] => cases next
  | head resolution (first :: rest) =>
    cases next
    simp [pending, puts, takes]
  | inside resolution (arc :: left) queue found =>
    cases next
    by_cases present : arc.target ∈ resolution.modules
    · rw [record_of_mem ⟨resolution, found⟩ (arc.target, arc.kind) present]
      simp [pending, puts, takes, present]
    · rw [record_of_not_mem ⟨resolution, found⟩ (arc.target, arc.kind) present]
      simp [pending, puts, takes, present]
  | inside resolution [] (id :: queue) found =>
    obtain ⟨asked, left, _, taken⟩ := next?_follow resolver platform resolution id queue found
    obtain rfl := Option.some.inj (taken.symm.trans next)
    simp [pending, puts, takes]
  | inside resolution [] [] found =>
    cases next
    simp [pending, puts, takes]

private theorem Worklist.Accounted.vertices_next {before after : Worklist}
    (accounted : before.Accounted resolver platform initial)
    (next : before.next? resolver platform = some after) :
    after.resolution.graph.vertices = before.resolution.graph.vertices ++ before.puts := by
  match before, accounted with
  | head resolution [], _ => cases next
  | head resolution (first :: rest), _ =>
    cases next
    simp [Worklist.resolution, puts]
  | inside resolution (arc :: left) queue found, ⟨followed, accounts⟩ =>
    cases next
    simp only [Worklist.resolution, graph_record, accounts.next_vertices, Graph.extended, puts,
      accounts.members]
    split <;> simp
  | inside resolution [] (id :: queue) found, _ =>
    obtain ⟨asked, left, same, taken⟩ := next?_follow resolver platform resolution id queue found
    obtain rfl := Option.some.inj (taken.symm.trans next)
    simp [Worklist.resolution, same, puts]
  | inside resolution [] [] found, _ =>
    cases next
    simp [Worklist.resolution, puts, Progress.close]

namespace Worklist.History

private theorem queued_eq (history : History resolver platform initial queued taken state) :
    queued = taken ++ state.pending := by
  induction history with
  | start => rfl
  | step _ next ih => rw [ih, List.append_assoc, pending_next next, List.append_assoc]

private theorem vertices_eq (history : History resolver platform initial queued taken state) :
    state.resolution.graph.vertices = queued := by
  induction history with
  | start => exact seed_vertices initial
  | step history next ih => rw [(accounted history.leads).vertices_next next, ih]

private theorem accounts (history : History resolver platform initial queued taken state) :
    Accounts resolver platform initial taken state.pending state.left state.resolution := by
  have order := history.vertices_eq.trans history.queued_eq
  cases state with
  | head resolution queue =>
    obtain ⟨followed, accounts⟩ := accounted history.leads
    obtain rfl := List.append_cancel_right (accounts.order.symm.trans order)
    exact accounts
  | inside resolution left queue found =>
    obtain ⟨followed, accounts⟩ := accounted history.leads
    obtain rfl := List.append_cancel_right (accounts.order.symm.trans order)
    exact accounts

private theorem coherent (history : History resolver platform initial queued taken state) :
    Coherent resolver queued taken state := by
  have accounts := history.accounts
  obtain ⟨arcs, records, split⟩ := accounts.recorded
  have apart : (resolver.arcsFrom platform taken).Pairwise fun first second =>
      ¬ first.Parallel second := arcsFrom_distinct accounts.followed_nodup
  rw [← split] at apart
  have numbered {id : ModuleId} (member : id ∈ state.resolution.graph.vertices) :
      state.resolution.graph.index? id = some (state.resolution.graph.vertices.idxOf id) :=
    Graph.index?_of_mem member
  have listed := history.vertices_eq
  have members (id : ModuleId) :
      id ∈ state.resolution.graph.numbers.keys ↔ id ∈ state.resolution.modules := by
    rw [Graph.keys_numbers, accounts.members]
  have keyed : state.resolution.graph.numbers.keys.length =
      state.resolution.graph.numbers.size := List.length_map _
  exact {
    keys := members
    numbers := fun id n => Graph.index?_eq_some
    gapless := by rw [← keyed, Graph.keys_numbers]
    counted := by
      rw [← keyed]
      exact List.Perm.length_eq ((List.perm_ext_iff_of_nodup
        (Dictionary.distinct _) (ModuleSet.nodup _)).2 members)
    single := records.edges_apart (List.pairwise_append.1 apart).1
    sources := fun edge member => by
      rw [records.edges] at member
      obtain ⟨arc, inside, rfl⟩ := List.mem_map.1 member
      have contributed : arc ∈ resolver.arcsFrom platform taken :=
        split ▸ List.mem_append_left state.left inside
      obtain ⟨followed, plugin, _⟩ := mem_arcsFrom.1 contributed
      exact ⟨arc.source, followed, plugin, numbered (records.sources arc inside)⟩
    targets := fun edge member => by
      rw [records.edges] at member
      obtain ⟨arc, inside, rfl⟩ := List.mem_map.1 member
      exact ⟨arc.target, numbered (records.targets arc inside)⟩
    waiting := history.queued_eq
    once := listed ▸ records.distinct
    known := fun id member => (accounts.members id).2 (listed ▸ member)
    initial := fun id member => by
      rw [accounts.initially] at member
      exact (accounts.members id).2 (accounts.seeded.subset member)
    unavailable := fun id member => by
      rw [accounts.members, accounts.order]
      exact List.mem_append_left _ ((accounts.unavailable id).1 member).1
    halfway := fun arc later holds id => by
      rw [holds] at accounts
      rw [Graph.keys_numbers, accounts.next_vertices, Graph.mem_extended, accounts.members] }

end Worklist.History

/-- At every moment of every run the set of modules, their numbers, the edges and the queues agree:
each module has one number and each number below their count one module, no two edges join the same
numbers, edges leave plugins taken from the queue, and no module is put into the queue twice. The
outcome of resolution is the last of these moments. -/
theorem resolve_integrity (resolver : Resolver) (platform : Platform) (initial : ModuleSet) :
    (∀ queued taken state, History resolver platform initial queued taken state →
      Coherent resolver queued taken state) ∧
    ∀ bounded : resolver.Bounded platform initial,
      let result := head (resolver.resolve platform initial bounded).value []
      (∃ queued, History resolver platform initial queued queued result) ∧
      ∀ queued taken state, History resolver platform initial queued taken state →
        Leads resolver platform state result := by
  refine ⟨fun queued taken state history => history.coherent, fun bounded => ?_⟩
  intro result
  have ends := resolve_leads resolver platform initial bounded
  refine ⟨?_, fun queued taken state history => leads_of_stopped ends rfl history.leads⟩
  obtain ⟨queued, taken, history⟩ := exists_history ends
  have all := history.queued_eq
  rw [pending, List.append_nil] at all
  exact ⟨taken, all ▸ history⟩

theorem resolve_integrity_tangle : ∃ queued taken state,
    History tangle .linux (.ofList [extA]) queued taken state ∧ extA ∈ taken ∧ driver ∈ queued ∧
      driver ∉ taken ∧ state.left ≠ [] ∧ queued.Nodup ∧ driver ∈ state.resolution.modules ∧
      ∃ edge ∈ state.resolution.graph.edges, ∃ id ∈ taken,
        state.resolution.graph.index? id = some edge.source := by
  have opened : History tangle .linux (.ofList [extA]) _ _ _ := .start
  have history := ((opened.step rfl).step rfl).step rfl
  have coherent := (resolve_integrity tangle .linux (.ofList [extA])).1 _ _ _ history
  obtain ⟨id, followed, _, numbered⟩ := coherent.sources ⟨0, 1, .platform⟩ (by decide)
  exact ⟨_, _, _, history, by decide, by decide, by decide, by decide, coherent.once,
    coherent.known driver (by decide), ⟨0, 1, .platform⟩, by decide, id, followed, numbered⟩

end Resolver
end BundlePlan
