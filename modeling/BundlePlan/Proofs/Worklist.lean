import BundlePlan.Proofs.Reach

/-! The loop that resolves modules, one step at a time, and what is true of it at every moment.
The steps lead from the seed to the outcome of `resolve`, so that an invariant of the steps holds
of every outcome. -/
namespace BundlePlan.Resolver

/-- The loop at one moment: before a round, or inside one with arcs left to record for the module in
hand, modules left to follow in this round and modules found for the next. -/
inductive Worklist
  | head (resolution : Resolution) (queue : List ModuleId)
  | inside (resolution : Resolution) (left : List Arc) (queue found : List ModuleId)

variable (resolver : Resolver) (platform : Platform)

namespace Worklist

def seed (initial : ModuleSet) : Worklist := head (.seed initial) initial.toList

/-- The next moment; there is none once a round would have nothing to follow. -/
def next? : Worklist → Option Worklist
  | head _ [] => none
  | head resolution (first :: rest) => some (inside resolution [] (first :: rest) [])
  | inside resolution (arc :: left) queue found =>
    let progress := (record arc.source ⟨resolution, found⟩ (arc.target, arc.kind)).value
    some (inside progress.resolution left queue progress.found)
  | inside resolution [] (id :: queue) found =>
    if resolver.isPlugin id then
      some (inside (answer id resolution (resolver.lookup id).value).value
        (resolver.outgoing platform id) queue found)
    else some (inside resolution [] queue found)
  | inside resolution [] [] found => some (head (Progress.close ⟨resolution, found⟩) found)

def Leads : Worklist → Worklist → Prop :=
  Relation.ReflTransGen fun before after => before.next? resolver platform = some after

end Worklist

open Worklist

private theorem record_leads (id : ModuleId) (targets : List (ModuleId × EdgeKind))
    (progress : Progress) (queue : List ModuleId) :
    let done := (targets.foldlM (record id) progress).value
    Leads resolver platform
      (inside progress.resolution (targets.map fun target => ⟨id, target.1, target.2⟩) queue
        progress.found)
      (inside done.resolution [] queue done.found) := by
  induction targets generalizing progress with
  | nil => exact .refl
  | cons target rest ih =>
    have first : (inside progress.resolution
        ((target :: rest).map fun target => (⟨id, target.1, target.2⟩ : Arc)) queue
        progress.found).next? resolver platform =
      some (inside (record id progress target).value.resolution
        (rest.map fun target => ⟨id, target.1, target.2⟩) queue
        (record id progress target).value.found) := rfl
    exact .head first (ih (record id progress target).value)

private theorem follow_leads (id : ModuleId) (progress : Progress) (queue : List ModuleId) :
    let done := (resolver.follow platform progress id).value
    Leads resolver platform (inside progress.resolution [] (id :: queue) progress.found)
      (inside done.resolution [] queue done.found) := by
  by_cases plugin : resolver.isPlugin id = true
  · have first : (inside progress.resolution [] (id :: queue) progress.found).next?
        resolver platform =
      some (inside (resolver.asked progress id).resolution (resolver.outgoing platform id) queue
        progress.found) := by
      simp only [next?, plugin, if_true, asked]
    rw [value_follow_plugin resolver platform progress plugin]
    exact .head first (record_leads resolver platform id (resolver.contribution platform id)
      (resolver.asked progress id) queue)
  · rw [follow_other resolver platform progress plugin]
    refine .single ?_
    simp only [next?, plugin]
    rfl

private theorem round_leads (queue : List ModuleId) (progress : Progress) :
    let done := (queue.foldlM (resolver.follow platform) progress).value
    Leads resolver platform (inside progress.resolution [] queue progress.found)
      (inside done.resolution [] [] done.found) := by
  induction queue generalizing progress with
  | nil => exact .refl
  | cons id rest ih =>
    exact (follow_leads resolver platform id progress rest).trans
      (ih (resolver.follow platform progress id).value)

theorem turn_leads (resolution : Resolution) (first : ModuleId) (rest : List ModuleId) :
    let done := (resolver.round platform resolution (first :: rest)).value
    Leads resolver platform (head resolution (first :: rest)) (head done.close done.found) := by
  have opens : (head resolution (first :: rest)).next? resolver platform =
      some (inside resolution [] (first :: rest) []) := rfl
  have closes (done : Progress) : (inside done.resolution [] [] done.found).next?
      resolver platform = some (head done.close done.found) := rfl
  exact .head opens ((round_leads resolver platform (first :: rest) ⟨resolution, []⟩).tail
    (closes _))

private theorem rounds_leads (initial : ModuleSet) (bounded : resolver.Bounded platform initial)
    (resolution : Resolution) (queue : List ModuleId)
    (ranged : ∀ id ∈ resolution.modules, id ∈ bounded.choose)
    (queued : ∀ id ∈ queue, id ∈ resolution.modules) :
    Leads resolver platform (head resolution queue)
      (head (resolver.rounds platform initial bounded resolution queue ranged queued).value []) := by
  induction resolution, queue, ranged, queued using rounds.induct with
  | case1 resolution ranged queued =>
    rw [rounds.eq_1]
    exact .refl
  | case2 resolution ranged first rest queued done kept _ ih =>
    rw [rounds.eq_2]
    exact (turn_leads resolver platform resolution first rest).trans ih

/-- The steps from the seed end, with what `resolve` answers. -/
theorem resolve_leads (initial : ModuleSet) (bounded : resolver.Bounded platform initial) :
    Leads resolver platform (seed initial)
      (head (resolver.resolve platform initial bounded).value []) :=
  rounds_leads resolver platform initial bounded (.seed initial) initial.toList
    bounded.choose_spec.1 fun _ member => member

/-- The books of the loop. The modules come in the order of their numbers: first those followed,
then those waiting. Followed plugins have been looked up once, in that order, and the arcs that they
contribute are recorded except for those left. -/
structure Accounts (initial : ModuleSet) (followed waiting : List ModuleId) (left : List Arc)
    (resolution : Resolution) : Prop where
  order : resolution.graph.vertices = followed ++ waiting
  members : ∀ id, id ∈ resolution.modules ↔ id ∈ resolution.graph.vertices
  seeded : initial.toList <+: resolution.graph.vertices
  initially : resolution.initial = initial
  lookups : resolution.lookups = followed.filter resolver.isPlugin
  unavailable : ∀ id, id ∈ resolution.unavailable ↔
    id ∈ followed ∧ resolver.isPlugin id = true ∧
      ∃ failure, (resolver.lookup id).value = .error failure
  recorded : ∃ arcs, resolution.graph.Records arcs ∧
    arcs ++ left = resolver.arcsFrom platform followed
  reached : ∀ id ∈ resolution.graph.vertices, resolver.Reachable platform initial id

variable {resolver platform} {initial : ModuleSet} {resolution : Resolution}
  {followed waiting queue found : List ModuleId} {left : List Arc}

@[simp] theorem seed_vertices (initial : ModuleSet) :
    (Resolution.seed initial).graph.vertices = initial.toList :=
  (Graph.ofVertices_eq initial.nodup).1

theorem accounts_seed (initial : ModuleSet) :
    Accounts resolver platform initial [] initial.toList [] (.seed initial) where
  order := seed_vertices initial
  members id := by
    rw [seed_vertices]
    exact Iff.rfl
  seeded := (seed_vertices initial).symm ▸ List.prefix_rfl
  initially := rfl
  lookups := rfl
  unavailable id := by
    refine ⟨fun member => absurd member List.not_mem_nil, fun member => ?_⟩
    exact absurd member.1 List.not_mem_nil
  recorded := by
    refine ⟨[], ⟨(seed_vertices initial).symm ▸ initial.nodup, ?_, ?_,
      (Graph.ofVertices_eq initial.nodup).2⟩, rfl⟩
    · exact fun arc member => absurd member List.not_mem_nil
    · exact fun arc member => absurd member List.not_mem_nil
  reached id member := by
    rw [seed_vertices] at member
    exact .start member

theorem record_of_mem {origin : ModuleId} (progress : Progress) (target : ModuleId × EdgeKind)
    (present : target.1 ∈ progress.resolution.modules) :
    (record origin progress target).value =
      ⟨{ progress.resolution with
          graph := progress.resolution.graph.link origin target.1 target.2 }, progress.found⟩ := by
  simp only [record, present, if_true]
  rfl

theorem record_of_not_mem {origin : ModuleId} (progress : Progress)
    (target : ModuleId × EdgeKind) (absent : target.1 ∉ progress.resolution.modules) :
    (record origin progress target).value =
      ⟨{ progress.resolution with
          graph := progress.resolution.graph.link origin target.1 target.2
          modules := progress.resolution.modules.insert target.1 },
        progress.found ++ [target.1]⟩ := by
  simp only [record, absent, if_false]
  rfl

@[simp] theorem graph_record (origin : ModuleId) (progress : Progress)
    (target : ModuleId × EdgeKind) :
    (record origin progress target).value.resolution.graph =
      progress.resolution.graph.link origin target.1 target.2 := by
  by_cases present : target.1 ∈ progress.resolution.modules
  · rw [record_of_mem progress target present]
  · rw [record_of_not_mem progress target present]

@[simp] theorem graph_answer (id : ModuleId) (outcome : Except LookupFailure Declaration) :
    (answer id resolution outcome).value.graph = resolution.graph := by cases outcome <;> rfl

@[simp] theorem initial_answer (id : ModuleId) (outcome : Except LookupFailure Declaration) :
    (answer id resolution outcome).value.initial = resolution.initial := by cases outcome <;> rfl

@[simp] theorem lookups_answer (id : ModuleId) (outcome : Except LookupFailure Declaration) :
    (answer id resolution outcome).value.lookups = resolution.lookups ++ [id] := by
  cases outcome <;> rfl

@[simp] theorem mem_unavailable_answer {id x : ModuleId}
    {outcome : Except LookupFailure Declaration} :
    x ∈ (answer id resolution outcome).value.unavailable ↔
      x ∈ resolution.unavailable ∨ x = id ∧ ∃ failure, outcome = .error failure := by
  cases outcome with
  | ok declaration =>
    refine ⟨.inl, fun either => either.elim (fun old => old) ?_⟩
    rintro ⟨_, _, failed⟩
    cases failed
  | error failure =>
    refine ModuleSet.mem_insert.trans ⟨?_, ?_⟩
    · rintro (same | old)
      · exact .inr ⟨same, failure, rfl⟩
      · exact .inl old
    · rintro (old | ⟨same, _⟩)
      · exact .inr old
      · exact .inl same

namespace Accounts

variable {arc : Arc}

theorem followed_nodup
    (accounts : Accounts resolver platform initial followed waiting left resolution) :
    followed.Nodup := by
  obtain ⟨_, records, _⟩ := accounts.recorded
  have distinct := records.distinct
  rw [accounts.order] at distinct
  exact distinct.of_append_left

private theorem next_contributed
    (accounts : Accounts resolver platform initial followed waiting (arc :: left) resolution) :
    arc ∈ resolver.arcsFrom platform followed := by
  obtain ⟨arcs, _, split⟩ := accounts.recorded
  rw [← split]
  exact List.mem_append_right arcs List.mem_cons_self

private theorem next_source
    (accounts : Accounts resolver platform initial followed waiting (arc :: left) resolution) :
    arc.source ∈ resolution.graph.vertices := by
  rw [accounts.order]
  exact List.mem_append_left _ (mem_arcsFrom.1 accounts.next_contributed).1

theorem next_vertices
    (accounts : Accounts resolver platform initial followed waiting (arc :: left) resolution) :
    (resolution.graph.link arc.source arc.target arc.kind).vertices =
      Graph.extended resolution.graph.vertices arc.target := by
  exact (Graph.link_of_mem accounts.next_source).1

theorem next_recorded
    (accounts : Accounts resolver platform initial followed waiting (arc :: left) resolution) :
    ∃ arcs, (resolution.graph.link arc.source arc.target arc.kind).Records arcs ∧
      arcs ++ left = resolver.arcsFrom platform followed := by
  obtain ⟨arcs, records, split⟩ := accounts.recorded
  have apart : (resolver.arcsFrom platform followed).Pairwise fun first second =>
      ¬ first.Parallel second := arcsFrom_distinct accounts.followed_nodup
  rw [← split] at apart
  have new : ∀ other ∈ arcs, ¬ other.Parallel arc := fun other member =>
    (List.pairwise_append.1 apart).2.2 other member arc List.mem_cons_self
  refine ⟨arcs ++ [arc], records.link accounts.next_source new, ?_⟩
  rw [List.append_assoc, List.singleton_append, split]

private theorem next_reached
    (accounts : Accounts resolver platform initial followed waiting (arc :: left) resolution) :
    ∀ id ∈ (resolution.graph.link arc.source arc.target arc.kind).vertices,
      resolver.Reachable platform initial id := by
  intro id member
  rw [accounts.next_vertices, Graph.mem_extended] at member
  rcases member with rfl | old
  · exact (accounts.reached arc.source accounts.next_source).step
      (needs_of_mem_arcsFrom accounts.next_contributed)
  · exact accounts.reached id old

/-- Recording an arc keeps the books: its target is known already, or it is entered as the last
module found. -/
theorem record
    (accounts : Accounts resolver platform initial followed (queue ++ found) (arc :: left)
      resolution) :
    let progress := (record arc.source ⟨resolution, found⟩ (arc.target, arc.kind)).value
    Accounts resolver platform initial followed (queue ++ progress.found) left
      progress.resolution := by
  have vertices := accounts.next_vertices
  by_cases present : arc.target ∈ resolution.modules
  · rw [Graph.extended, if_pos ((accounts.members arc.target).1 present)] at vertices
    rw [record_of_mem ⟨resolution, found⟩ (arc.target, arc.kind) present]
    exact {
      order := vertices.trans accounts.order
      members := fun id => (accounts.members id).trans (by rw [vertices])
      seeded := vertices ▸ accounts.seeded
      initially := accounts.initially
      lookups := accounts.lookups
      unavailable := accounts.unavailable
      recorded := accounts.next_recorded
      reached := accounts.next_reached }
  · have absent : arc.target ∉ resolution.graph.vertices :=
      fun member => present ((accounts.members arc.target).2 member)
    rw [Graph.extended, if_neg absent] at vertices
    rw [record_of_not_mem ⟨resolution, found⟩ (arc.target, arc.kind) present]
    exact {
      order := by rw [vertices, accounts.order, List.append_assoc, List.append_assoc]
      members := fun id => by
        rw [vertices, ModuleSet.mem_insert, accounts.members, List.mem_append,
          List.mem_singleton, or_comm]
      seeded := vertices ▸ accounts.seeded.trans (List.prefix_append _ _)
      initially := accounts.initially
      lookups := accounts.lookups
      unavailable := accounts.unavailable
      recorded := accounts.next_recorded
      reached := accounts.next_reached }

theorem follow {id : ModuleId}
    (accounts : Accounts resolver platform initial followed (id :: waiting) [] resolution)
    (plugin : resolver.isPlugin id = true) :
    Accounts resolver platform initial (followed ++ [id]) waiting (resolver.outgoing platform id)
      (answer id resolution (resolver.lookup id).value).value where
  order := by rw [graph_answer, accounts.order, List.append_assoc, List.singleton_append]
  members x := by rw [modules_answer, graph_answer]; exact accounts.members x
  seeded := by rw [graph_answer]; exact accounts.seeded
  initially := by rw [initial_answer]; exact accounts.initially
  lookups := by
    rw [lookups_answer, accounts.lookups, List.filter_append, List.filter_cons_of_pos plugin,
      List.filter_nil]
  unavailable x := by
    rw [mem_unavailable_answer, accounts.unavailable, List.mem_append, List.mem_singleton]
    constructor
    · rintro (⟨member, known, failed⟩ | ⟨rfl, failed⟩)
      · exact ⟨.inl member, known, failed⟩
      · exact ⟨.inr rfl, plugin, failed⟩
    · rintro ⟨member | rfl, known, failed⟩
      · exact .inl ⟨member, known, failed⟩
      · exact .inr ⟨rfl, failed⟩
  recorded := by
    obtain ⟨arcs, records, split⟩ := accounts.recorded
    refine ⟨arcs, by rw [graph_answer]; exact records, ?_⟩
    rw [arcsFrom_append, arcsFrom_plugin plugin, ← split, List.append_nil]
  reached := by rw [graph_answer]; exact accounts.reached

theorem skip {id : ModuleId}
    (accounts : Accounts resolver platform initial followed (id :: waiting) [] resolution)
    (other : ¬ resolver.isPlugin id = true) :
    Accounts resolver platform initial (followed ++ [id]) waiting [] resolution where
  order := by rw [accounts.order, List.append_assoc, List.singleton_append]
  members := accounts.members
  seeded := accounts.seeded
  initially := accounts.initially
  lookups := by
    rw [accounts.lookups, List.filter_append, List.filter_cons_of_neg other, List.filter_nil,
      List.append_nil]
  unavailable x := by
    rw [accounts.unavailable, List.mem_append, List.mem_singleton]
    constructor
    · rintro ⟨member, known, failed⟩
      exact ⟨.inl member, known, failed⟩
    · rintro ⟨member | rfl, known, failed⟩
      · exact ⟨member, known, failed⟩
      · exact absurd known other
  recorded := by
    obtain ⟨arcs, records, split⟩ := accounts.recorded
    refine ⟨arcs, records, ?_⟩
    rw [arcsFrom_append, arcsFrom_other other, split, List.append_nil]
  reached := accounts.reached

theorem close (accounts : Accounts resolver platform initial followed waiting left resolution) :
    Accounts resolver platform initial followed waiting left
      (Progress.close ⟨resolution, found⟩) :=
  { accounts with }

end Accounts

def Worklist.Accounted (resolver : Resolver) (platform : Platform) (initial : ModuleSet) :
    Worklist → Prop
  | head resolution queue =>
    ∃ followed, Accounts resolver platform initial followed queue [] resolution
  | inside resolution left queue found =>
    ∃ followed, Accounts resolver platform initial followed (queue ++ found) left resolution

private theorem Worklist.Accounted.next {before after : Worklist}
    (accounted : before.Accounted resolver platform initial)
    (step : before.next? resolver platform = some after) :
    after.Accounted resolver platform initial := by
  match before, accounted with
  | head resolution [], _ => cases step
  | head resolution (first :: rest), ⟨followed, accounts⟩ =>
    cases step
    exact ⟨followed, by rw [List.append_nil]; exact accounts⟩
  | inside resolution (arc :: left) queue found, ⟨followed, accounts⟩ =>
    cases step
    exact ⟨followed, accounts.record⟩
  | inside resolution [] (id :: queue) found, ⟨followed, accounts⟩ =>
    by_cases plugin : resolver.isPlugin id = true
    · simp only [next?, plugin, if_true, Option.some.injEq] at step
      subst step
      exact ⟨followed ++ [id], accounts.follow plugin⟩
    · simp only [next?, plugin, Bool.false_eq_true, if_false, Option.some.injEq] at step
      subst step
      exact ⟨followed ++ [id], accounts.skip plugin⟩
  | inside resolution [] [] found, ⟨followed, accounts⟩ =>
    cases step
    exact ⟨followed, accounts.close⟩

theorem Worklist.accounted {state : Worklist}
    (leads : Leads resolver platform (seed initial) state) :
    state.Accounted resolver platform initial := by
  induction leads with
  | refl => exact ⟨[], accounts_seed initial⟩
  | tail _ step ih => exact ih.next step

/-- In the outcome every module has been followed and every arc recorded. -/
theorem accounts_resolve (bounded : resolver.Bounded platform initial) :
    let result := (resolver.resolve platform initial bounded).value
    Accounts resolver platform initial result.graph.vertices [] [] result := by
  obtain ⟨followed, accounts⟩ :=
    Worklist.accounted (resolve_leads resolver platform initial bounded)
  have all := accounts.order
  rw [List.append_nil] at all
  dsimp only
  rw [all]
  exact accounts

end BundlePlan.Resolver
