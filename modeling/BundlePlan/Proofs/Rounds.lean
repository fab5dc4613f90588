import BundlePlan.Proofs.Closure
import Mathlib.Data.List.Perm.Subperm

/-! How much work resolution is. Every round that is not the last one adds a module, all modules
come from the finitely many that are mentioned anywhere, and no module is looked up twice. -/
namespace BundlePlan.Resolver
open Worklist

/-- An identifier that stands in the initial set, in a declaration that can be looked up or in a row
for the platform. -/
inductive Mentioned (resolver : Resolver) (platform : Platform) (initial : ModuleSet)
    (id : ModuleId) : Prop
  | initially (member : id ∈ initial)
  | declared (origin : ModuleId) (declaration : Declaration)
      (loaded : (resolver.lookup origin).value = .ok declaration)
      (listed : id ∈ declaration.dependencies)
  | extra (origin : ModuleId) (listed : id ∈ resolver.table.extra origin platform)

variable {resolver : Resolver} {platform : Platform} {initial : ModuleSet}

private theorem Reachable.mentioned {id : ModuleId}
    (reached : resolver.Reachable platform initial id) :
    resolver.Mentioned platform initial id := by
  refine reached.of_closed (resolver.Mentioned platform initial)
    (fun _ member => .initially member) ?_
  rintro origin target _ (⟨_, declaration, loaded, listed⟩ | ⟨_, listed⟩)
  · exact .declared origin declaration loaded listed
  · exact .extra origin listed

private theorem mentioned_finite (catalog : Catalog) (disk : Disk) (table : PlatformTable)
    (scope : Option ModuleId) :
    {id | (ofCatalog catalog disk table scope).Mentioned platform initial id}.Finite := by
  refine (List.finite_toSet (initial.toList ++ catalog.vocabulary disk ++ table.listed)).subset ?_
  rintro id (member | ⟨origin, declaration, loaded, listed⟩ | ⟨origin, listed⟩)
  · exact List.mem_append_left _ (List.mem_append_left _ member)
  · exact List.mem_append_left _ (List.mem_append_right _ (Catalog.mem_vocabulary loaded listed))
  · exact List.mem_append_right _ (PlatformTable.mem_listed_of_mem_extra listed)

private theorem size_le_of_grown {before after : ModuleSet} (grown : ∀ id ∈ before, id ∈ after) :
    before.size ≤ after.size :=
  (List.subperm_of_subset before.nodup grown).length_le

private theorem size_lt_of_grown {before after : ModuleSet} (grown : ∀ id ∈ before, id ∈ after)
    {new : ModuleId} (entered : new ∈ after) (fresh : new ∉ before) : before.size < after.size := by
  have distinct : (new :: before.toList).Nodup := List.nodup_cons.2 ⟨fresh, before.nodup⟩
  refine (List.subperm_of_subset distinct ?_).length_le
  intro id member
  rcases List.mem_cons.1 member with rfl | old
  · exact entered
  · exact grown id old

private theorem Keeps.size_add_le {range : List ModuleId} {before : ModuleSet} {progress : Progress}
    (kept : Keeps range before progress) :
    before.size + min 1 progress.found.length ≤ progress.close.modules.size := by
  cases found : progress.found with
  | nil => exact size_le_of_grown kept.grown
  | cons new others =>
    obtain ⟨entered, fresh⟩ := kept.fresh new (by rw [found]; exact List.mem_cons_self)
    have larger : before.size < progress.resolution.modules.size :=
      size_lt_of_grown kept.grown entered fresh
    exact (Nat.add_le_add_left (Nat.min_le_left 1 _) before.size).trans larger

/-- A round that is followed by another one adds a module that none before it had. -/
theorem turn_adds (bounded : resolver.Bounded platform initial) {before : Resolution}
    {first : ModuleId} {rest : List ModuleId}
    (leads : Leads resolver platform (seed initial) (head before (first :: rest)))
    (some : (resolver.round platform before (first :: rest)).value.found ≠ []) :
    ∃ id, resolver.Reachable platform initial id ∧ id ∉ before.modules ∧
      id ∈ (resolver.round platform before (first :: rest)).value.close.modules := by
  obtain ⟨range, initially, closed⟩ := bounded
  obtain ⟨followed, accounts⟩ := Worklist.accounted leads
  have ranged : ∀ id ∈ before.modules, id ∈ range := by
    intro id member
    exact (accounts.reached id ((accounts.members id).1 member)).mem_of_closed initially closed
  have queued : ∀ id ∈ first :: rest, id ∈ before.modules := by
    intro id member
    refine (accounts.members id).2 ?_
    rw [accounts.order]
    exact List.mem_append_right followed member
  have kept := round_keeps closed ranged queued
  obtain ⟨new, member⟩ := List.exists_mem_of_ne_nil _ some
  obtain ⟨entered, fresh⟩ := kept.fresh new member
  obtain ⟨_, later⟩ :=
    Worklist.accounted (leads.trans (turn_leads resolver platform before first rest))
  exact ⟨new, later.reached new ((later.members new).1 entered), fresh, entered⟩

@[simp] theorem growth_record (origin : ModuleId) (progress : Progress)
    (target : ModuleId × EdgeKind) :
    (record origin progress target).value.resolution.growth = progress.resolution.growth := by
  by_cases present : target.1 ∈ progress.resolution.modules
  · rw [record_of_mem progress target present]
  · rw [record_of_not_mem progress target present]

@[simp] theorem growth_follow (progress : Progress) (id : ModuleId) :
    (resolver.follow platform progress id).value.resolution.growth =
      progress.resolution.growth := by
  by_cases plugin : resolver.isPlugin id = true
  · rw [value_follow_plugin resolver platform progress plugin]
    refine foldlM_keeps (record id) (fun p => p.resolution.growth = progress.resolution.growth) _
      (fun p same target _ => (growth_record id p target).trans same) _ ?_
    unfold asked
    cases (resolver.lookup id).value <;> rfl
  · rw [follow_other resolver platform progress plugin, Logged.value_pure]

@[simp] theorem growth_round (resolution : Resolution) (queue : List ModuleId) :
    (resolver.round platform resolution queue).value.resolution.growth = resolution.growth :=
  foldlM_keeps (resolver.follow platform) (fun p => p.resolution.growth = resolution.growth) queue
    (fun p same id _ => (growth_follow p id).trans same) ⟨resolution, []⟩ rfl

private theorem growth_rounds (bounded : resolver.Bounded platform initial)
    (resolution : Resolution) (queue : List ModuleId)
    (ranged : ∀ id ∈ resolution.modules, id ∈ bounded.choose)
    (queued : ∀ id ∈ queue, id ∈ resolution.modules) :
    let result := (resolver.rounds platform initial bounded resolution queue ranged queued).value
    result.growth.length + resolution.modules.size ≤
      resolution.growth.length + result.modules.size + min 1 queue.length := by
  induction resolution, queue, ranged, queued using rounds.induct with
  | case1 resolution ranged queued =>
    rw [rounds.eq_1]
    exact Nat.le_refl _
  | case2 resolution ranged first rest queued done kept _ ih =>
    rw [rounds.eq_2]
    have closed : done.value.close.growth.length = resolution.growth.length + 1 := by
      simp [Progress.close, done]
    have added := kept.size_add_le
    dsimp only [done, Logged.value_bind] at ih closed ⊢
    rw [closed] at ih
    rw [List.length_cons]
    omega

private theorem lookups_length_le (bounded : resolver.Bounded platform initial) :
    let result := (resolver.resolve platform initial bounded).value
    result.lookups.length ≤ result.modules.size := by
  intro result
  have accounts : Accounts resolver platform initial result.graph.vertices [] [] result :=
    accounts_resolve bounded
  rw [accounts.lookups]
  refine (List.subperm_of_subset (accounts.followed_nodup.filter _) ?_).length_le
  intro id member
  exact (accounts.members id).2 (List.mem_of_mem_filter member)

/-- The loop ends over every catalog, whatever needs itself or each other: its steps lead to the
outcome, from which no step is left. All but the last round add a module that is mentioned
somewhere, which bounds the rounds, and no module is looked up twice. -/
theorem resolve_terminates (catalog : Catalog) (disk : Disk) (table : PlatformTable)
    (scope : Option ModuleId) (platform : Platform) (initial : ModuleSet) :
    let resolver := ofCatalog catalog disk table scope
    let result := (resolver.resolve platform initial
      (bounded_ofCatalog catalog disk table scope platform initial)).value
    (Leads resolver platform (seed initial) (head result []) ∧
      (head result []).next? resolver platform = none) ∧
    {id | resolver.Mentioned platform initial id}.Finite ∧
    (∀ before first rest,
      Leads resolver platform (seed initial) (head before (first :: rest)) →
      let done := (resolver.round platform before (first :: rest)).value
      Leads resolver platform (head before (first :: rest)) (head done.close done.found) ∧
        (done.found ≠ [] → ∃ id, resolver.Mentioned platform initial id ∧
          id ∉ before.modules ∧ id ∈ done.close.modules)) ∧
    result.rounds ≤ result.modules.size - initial.size + 1 ∧
    result.lookups.length ≤ result.modules.size := by
  intro resolver result
  have bounded := bounded_ofCatalog catalog disk table scope platform initial
  have grown : initial.size ≤ result.modules.size :=
    size_le_of_grown fun id member => (accounts_resolve bounded).initial_mem member
  refine ⟨⟨resolve_leads resolver platform initial bounded, rfl⟩,
    mentioned_finite catalog disk table scope, ?_, ?_, lookups_length_le bounded⟩
  · intro before first rest leads
    refine ⟨turn_leads resolver platform before first rest, fun some => ?_⟩
    obtain ⟨id, reached, fresh, entered⟩ := turn_adds bounded leads some
    exact ⟨id, reached.mentioned, fresh, entered⟩
  · have counted : result.growth.length + initial.size ≤
        1 + result.modules.size + min 1 initial.toList.length :=
      growth_rounds bounded (.seed initial) initial.toList bounded.choose_spec.1 fun _ member =>
        member
    simp only [Resolution.rounds]
    omega

end BundlePlan.Resolver
