import BundlePlan.Proofs.Arcs
import BundlePlan.Resolver
import Mathlib.Data.Set.Finite.List
import Mathlib.Logic.Relation

/-! What resolution is about, said without it: a module needs what its declaration or its platform
row names, provided that it is a plugin, and the modules reached from an initial set are those to
which a finite chain of needs leads. -/
namespace BundlePlan.Resolver

/-- One step of the dependency relation. A declaration that cannot be looked up names nothing. -/
inductive Needs (resolver : Resolver) (platform : Platform) (id target : ModuleId) : Prop
  | declared (plugin : resolver.isPlugin id = true) (declaration : Declaration)
      (loaded : (resolver.lookup id).value = .ok declaration)
      (listed : target ∈ declaration.dependencies)
  | extra (plugin : resolver.isPlugin id = true)
      (listed : target ∈ resolver.table.extra id platform)

def Reachable (resolver : Resolver) (platform : Platform) (initial : ModuleSet) (id : ModuleId) :
    Prop :=
  ∃ start ∈ initial, Relation.ReflTransGen (resolver.Needs platform) start id

variable {resolver : Resolver} {platform : Platform} {initial : ModuleSet}

theorem mem_declaredBy {outcome : Except LookupFailure Declaration} {id : ModuleId} :
    id ∈ declaredBy outcome ↔
      ∃ declaration, outcome = .ok declaration ∧ id ∈ declaration.dependencies := by
  cases outcome with
  | error failure =>
    refine ⟨fun member => ?_, fun ⟨_, loaded, _⟩ => nomatch loaded⟩
    exact absurd member List.not_mem_nil
  | ok declaration =>
    refine ⟨fun member => ⟨declaration, rfl, member⟩, ?_⟩
    rintro ⟨other, same, member⟩
    exact Except.ok.inj same ▸ member

@[simp] theorem mem_labelled {declared extra : ModuleSet} {target : ModuleId} {kind : EdgeKind} :
    (target, kind) ∈ labelled declared extra ↔
      (target ∈ declared ∨ target ∈ extra) ∧
        kind = if target ∈ declared then .declared else .platform := by
  simp only [labelled, List.mem_map, ModuleSet.mem_toList, ModuleSet.mem_union, Prod.mk.injEq]
  constructor
  · rintro ⟨_, either, rfl, rfl⟩
    exact ⟨either, rfl⟩
  · rintro ⟨either, rfl⟩
    exact ⟨target, either, rfl, rfl⟩

theorem needs_iff {id target : ModuleId} :
    resolver.Needs platform id target ↔
      resolver.isPlugin id = true ∧ ∃ kind, (target, kind) ∈ resolver.contribution platform id := by
  simp only [contribution, mem_labelled, exists_and_left, exists_eq, and_true, mem_declaredBy]
  constructor
  · rintro (⟨plugin, declaration, loaded, listed⟩ | ⟨plugin, listed⟩)
    · exact ⟨plugin, .inl ⟨declaration, loaded, listed⟩⟩
    · exact ⟨plugin, .inr listed⟩
  · rintro ⟨plugin, ⟨declaration, loaded, listed⟩ | listed⟩
    · exact .declared plugin declaration loaded listed
    · exact .extra plugin listed

theorem Reachable.start {id : ModuleId} (member : id ∈ initial) :
    resolver.Reachable platform initial id := ⟨id, member, .refl⟩

theorem Reachable.step {id target : ModuleId} (reached : resolver.Reachable platform initial id)
    (needed : resolver.Needs platform id target) : resolver.Reachable platform initial target := by
  obtain ⟨start, member, chain⟩ := reached
  exact ⟨start, member, chain.tail needed⟩

/-- What holds of the initial modules and passes on to what a module needs holds of all reached. -/
theorem Reachable.of_closed (holds : ModuleId → Prop) (initially : ∀ id ∈ initial, holds id)
    (passes : ∀ id target, holds id → resolver.Needs platform id target → holds target)
    {id : ModuleId} (reached : resolver.Reachable platform initial id) : holds id := by
  obtain ⟨start, member, chain⟩ := reached
  induction chain with
  | refl => exact initially start member
  | tail _ needed ih => exact passes _ _ ih needed

theorem Reachable.mem_of_closed {range : List ModuleId} (initially : ∀ id ∈ initial, id ∈ range)
    (closed : resolver.Closed platform range) {id : ModuleId}
    (reached : resolver.Reachable platform initial id) : id ∈ range := by
  refine reached.of_closed (· ∈ range) initially ?_
  intro origin target inside needed
  obtain ⟨plugin, kind, contributed⟩ := needs_iff.1 needed
  exact closed origin inside plugin (target, kind) contributed

/-- Resolution has a finite range to work in exactly when finitely many modules are reached. -/
theorem bounded_iff_finite :
    resolver.Bounded platform initial ↔ {id | resolver.Reachable platform initial id}.Finite := by
  constructor
  · rintro ⟨range, initially, closed⟩
    exact (List.finite_toSet range).subset fun id reached => reached.mem_of_closed initially closed
  · intro finite
    refine ⟨finite.toFinset.toList, fun id member => ?_, fun id inside plugin target member => ?_⟩
    · exact Finset.mem_toList.2 (finite.mem_toFinset.2 (.start member))
    · have reached : resolver.Reachable platform initial id :=
        finite.mem_toFinset.1 (Finset.mem_toList.1 inside)
      have needed : resolver.Needs platform id target.1 := needs_iff.2 ⟨plugin, target.2, member⟩
      exact Finset.mem_toList.2 (finite.mem_toFinset.2 (reached.step needed))

def outgoing (resolver : Resolver) (platform : Platform) (id : ModuleId) : List Arc :=
  (resolver.contribution platform id).map fun target => ⟨id, target.1, target.2⟩

/-- The arcs that following these modules in turn records. -/
def arcsFrom (resolver : Resolver) (platform : Platform) (followed : List ModuleId) : List Arc :=
  (followed.filter resolver.isPlugin).flatMap (resolver.outgoing platform)

@[simp] theorem mem_outgoing {id : ModuleId} {arc : Arc} :
    arc ∈ resolver.outgoing platform id ↔
      arc.source = id ∧ (arc.target, arc.kind) ∈ resolver.contribution platform id := by
  simp only [outgoing, List.mem_map]
  constructor
  · rintro ⟨target, member, rfl⟩
    exact ⟨rfl, member⟩
  · rintro ⟨rfl, member⟩
    exact ⟨_, member, rfl⟩

@[simp] theorem mem_arcsFrom {followed : List ModuleId} {arc : Arc} :
    arc ∈ resolver.arcsFrom platform followed ↔
      arc.source ∈ followed ∧ resolver.isPlugin arc.source = true ∧
        (arc.target, arc.kind) ∈ resolver.contribution platform arc.source := by
  simp only [arcsFrom, List.mem_flatMap, List.mem_filter, mem_outgoing]
  constructor
  · rintro ⟨id, ⟨member, plugin⟩, rfl, inside⟩
    exact ⟨member, plugin, inside⟩
  · rintro ⟨member, plugin, inside⟩
    exact ⟨_, ⟨member, plugin⟩, rfl, inside⟩

theorem needs_of_mem_arcsFrom {followed : List ModuleId} {arc : Arc}
    (member : arc ∈ resolver.arcsFrom platform followed) :
    resolver.Needs platform arc.source arc.target :=
  needs_iff.2 ⟨(mem_arcsFrom.1 member).2.1, arc.kind, (mem_arcsFrom.1 member).2.2⟩

@[simp] theorem arcsFrom_append (first second : List ModuleId) :
    resolver.arcsFrom platform (first ++ second) =
      resolver.arcsFrom platform first ++ resolver.arcsFrom platform second := by
  simp only [arcsFrom, List.filter_append, List.flatMap_append]

theorem arcsFrom_plugin {id : ModuleId} (plugin : resolver.isPlugin id = true) :
    resolver.arcsFrom platform [id] = resolver.outgoing platform id := by
  simp only [arcsFrom, List.filter_cons, plugin, if_true, List.filter_nil, List.flatMap_cons,
    List.flatMap_nil, List.append_nil]

theorem arcsFrom_other {id : ModuleId} (other : ¬ resolver.isPlugin id = true) :
    resolver.arcsFrom platform [id] = [] := by
  simp only [arcsFrom, List.filter_cons, other, if_false, List.filter_nil, List.flatMap_nil,
    Bool.false_eq_true]

private theorem outgoing_distinct (id : ModuleId) :
    (resolver.outgoing platform id).Pairwise fun first second => ¬ first.Parallel second := by
  have ascending := ((declaredBy (resolver.lookup id).value).union
    (resolver.table.extra id platform)).ascending
  simp only [outgoing, contribution, labelled, List.map_map, List.pairwise_map,
    Function.comp_apply]
  refine ascending.imp ?_
  rintro first second below ⟨_, targets⟩
  have same : first = second := targets
  exact ModuleId.lt_irrefl second (same ▸ below)

theorem arcsFrom_distinct {followed : List ModuleId} (distinct : followed.Nodup) :
    (resolver.arcsFrom platform followed).Pairwise fun first second => ¬ first.Parallel second := by
  refine List.pairwise_flatMap.2 ⟨fun id _ => outgoing_distinct id, ?_⟩
  refine (distinct.filter _).imp fun different first member second inside same => different ?_
  rw [← (mem_outgoing.1 member).1, ← (mem_outgoing.1 inside).1]
  exact same.1

end BundlePlan.Resolver
