import BundlePlan.Catalog.Vocabulary
import BundlePlan.PlatformTable
import BundlePlan.Resolution

/-! Following dependencies until nothing new is found. Modules outside the plugin namespace are
kept but not followed. The modules found in one round are followed in the next one, in the order
in which they were found; each module is looked up at most once. -/
namespace BundlePlan

structure Resolver where
  lookup : ModuleId → Logged (Except LookupFailure Declaration)
  table : PlatformTable
  scope : Option ModuleId

namespace Resolver

def isPlugin (resolver : Resolver) (id : ModuleId) : Bool :=
  resolver.scope.all fun scope => id.isWithin scope

def declaredBy : Except LookupFailure Declaration → ModuleSet
  | .ok declaration => declaration.dependencies
  | .error _ => ∅

/-- Declared and extra dependencies in ascending order; what is both counts as declared. -/
def labelled (declared extra : ModuleSet) : List (ModuleId × EdgeKind) :=
  (declared.union extra).toList.map fun id =>
    (id, if id ∈ declared then .declared else .platform)

/-- What following `id` leads to. A module that cannot be looked up still has its extra
dependencies. -/
def contribution (resolver : Resolver) (platform : Platform) (id : ModuleId) :
    List (ModuleId × EdgeKind) :=
  labelled (declaredBy (resolver.lookup id).value) (resolver.table.extra id platform)

structure Progress where
  resolution : Resolution
  found : List ModuleId

def record (origin : ModuleId) (progress : Progress) (target : ModuleId × EdgeKind) :
    Logged Progress :=
  let resolution := progress.resolution
  let linked := { resolution with graph := resolution.graph.link origin target.1 target.2 }
  if target.1 ∈ resolution.modules then pure { progress with resolution := linked }
  else do
    Logged.report (.discovered target.1 origin target.2)
    return {
      resolution := { linked with modules := resolution.modules.insert target.1 }
      found := progress.found ++ [target.1] }

def answer (id : ModuleId) (resolution : Resolution) (outcome : Except LookupFailure Declaration) :
    Logged Resolution :=
  let asked := { resolution with lookups := resolution.lookups ++ [id] }
  match outcome with
  | .ok _ => pure asked
  | .error failure => do
    Logged.report (.notFollowed failure)
    return { asked with unavailable := asked.unavailable.insert id }

/-- The declared dependencies of `id`, for which a query is evaluated. -/
def evaluate (id : ModuleId) : Except LookupFailure Declaration → Logged ModuleSet
  | .ok declaration => declaration.evaluate id
  | .error _ => pure ∅

def follow (resolver : Resolver) (platform : Platform) (progress : Progress) (id : ModuleId) :
    Logged Progress :=
  if resolver.isPlugin id then do
    let outcome ← resolver.lookup id
    let resolution ← answer id progress.resolution outcome
    let declared ← evaluate id outcome
    (labelled declared (resolver.table.extra id platform)).foldlM (record id)
      { progress with resolution := resolution }
  else pure progress

def round (resolver : Resolver) (platform : Platform) (resolution : Resolution)
    (queue : List ModuleId) : Logged Progress :=
  queue.foldlM (resolver.follow platform) ⟨resolution, []⟩

def Progress.close (progress : Progress) : Resolution :=
  { progress.resolution with
    growth := progress.resolution.growth ++ [progress.resolution.modules.size] }

/-- A list that following dependencies never leaves. -/
def Closed (resolver : Resolver) (platform : Platform) (range : List ModuleId) : Prop :=
  ∀ id ∈ range, resolver.isPlugin id = true →
    ∀ target ∈ resolver.contribution platform id, target.1 ∈ range

/-- Only finitely many modules can be reached from `initial`. -/
def Bounded (resolver : Resolver) (platform : Platform) (initial : ModuleSet) : Prop :=
  ∃ range : List ModuleId, (∀ id ∈ initial, id ∈ range) ∧ resolver.Closed platform range

/-- What a round keeps, seen from its beginning: modules are only added, all of them from `range`,
and what is to be followed next is new. -/
structure Keeps (range : List ModuleId) (before : ModuleSet) (progress : Progress) : Prop where
  grown : ∀ id ∈ before, id ∈ progress.resolution.modules
  ranged : ∀ id ∈ progress.resolution.modules, id ∈ range
  fresh : ∀ id ∈ progress.found, id ∈ progress.resolution.modules ∧ id ∉ before

private theorem value_foldlM_cons {α β : Type} (step : α → β → Logged α) (start : α) (b : β)
    (rest : List β) :
    ((b :: rest).foldlM step start).value = (rest.foldlM step (step start b).value).value := rfl

theorem foldlM_keeps {α β : Type} (step : α → β → Logged α) (kept : α → Prop) (list : List β)
    (each : ∀ a, kept a → ∀ b ∈ list, kept (step a b).value) (start : α) (held : kept start) :
    kept (list.foldlM step start).value := by
  induction list generalizing start with
  | nil => exact held
  | cons b rest ih =>
    rw [value_foldlM_cons]
    exact ih (fun a here c inside => each a here c (List.mem_cons_of_mem b inside)) _
      (each start held b List.mem_cons_self)

theorem record_keeps {range : List ModuleId} {before : ModuleSet} {progress : Progress}
    (kept : Keeps range before progress) (origin : ModuleId) (target : ModuleId × EdgeKind)
    (inside : target.1 ∈ range) : Keeps range before (record origin progress target).value := by
  unfold record
  by_cases present : target.1 ∈ progress.resolution.modules
  · simp only [present, if_true]
    exact ⟨kept.grown, kept.ranged, kept.fresh⟩
  · simp only [present, if_false]
    refine ⟨fun id old => ModuleSet.mem_insert.2 (.inr (kept.grown id old)), fun id member => ?_,
      fun id member => ?_⟩
    · rcases ModuleSet.mem_insert.1 member with same | old
      · exact same ▸ inside
      · exact kept.ranged id old
    · rcases List.mem_append.1 member with old | new
      · exact ⟨ModuleSet.mem_insert.2 (.inr (kept.fresh id old).1), (kept.fresh id old).2⟩
      · have same := List.mem_singleton.1 new
        exact ⟨ModuleSet.mem_insert.2 (.inl same), fun old => present (kept.grown _ (same ▸ old))⟩

@[simp] theorem modules_answer (id : ModuleId) (resolution : Resolution)
    (outcome : Except LookupFailure Declaration) :
    (answer id resolution outcome).value.modules = resolution.modules := by
  cases outcome <;> rfl

@[simp] theorem value_evaluate (id : ModuleId) (outcome : Except LookupFailure Declaration) :
    (evaluate id outcome).value = declaredBy outcome := by
  cases outcome with
  | ok declaration => exact declaration.value_evaluate id
  | error failure => rfl

@[simp] theorem events_evaluate (id : ModuleId) (outcome : Except LookupFailure Declaration) :
    (evaluate id outcome).events = [] := by
  cases outcome with
  | ok declaration => exact declaration.events_evaluate id
  | error failure => rfl

@[simp] theorem queried_evaluate (id : ModuleId) (outcome : Except LookupFailure Declaration) :
    (evaluate id outcome).queried =
      if outcome.toOption.any Declaration.isQuery then [id] else [] := by
  cases outcome with
  | ok declaration => exact declaration.queried_evaluate id
  | error failure => rfl

/-- A round right after the lookup of `id`. -/
def asked (resolver : Resolver) (progress : Progress) (id : ModuleId) : Progress :=
  { progress with resolution := (answer id progress.resolution (resolver.lookup id).value).value }

theorem value_follow_plugin (resolver : Resolver) (platform : Platform) (progress : Progress)
    {id : ModuleId} (plugin : resolver.isPlugin id = true) :
    (resolver.follow platform progress id).value =
      ((resolver.contribution platform id).foldlM (record id) (resolver.asked progress id)).value := by
  simp [follow, plugin, contribution, asked]

theorem follow_other (resolver : Resolver) (platform : Platform) (progress : Progress)
    {id : ModuleId} (other : ¬ resolver.isPlugin id = true) :
    resolver.follow platform progress id = pure progress := if_neg other

theorem follow_keeps {resolver : Resolver} {platform : Platform} {range : List ModuleId}
    (closed : resolver.Closed platform range) {before : ModuleSet} {progress : Progress}
    (kept : Keeps range before progress) (id : ModuleId) (inside : id ∈ range) :
    Keeps range before (resolver.follow platform progress id).value := by
  by_cases plugin : resolver.isPlugin id = true
  · rw [value_follow_plugin resolver platform progress plugin]
    refine foldlM_keeps (record id) (Keeps range before) _ (fun p here target member => ?_) _ ?_
    · exact record_keeps here id target (closed id inside plugin target member)
    · have same : (resolver.asked progress id).resolution.modules = progress.resolution.modules :=
        modules_answer id _ _
      exact ⟨fun x old => same ▸ kept.grown x old, fun x member => kept.ranged x (same ▸ member),
        fun x member => same ▸ kept.fresh x member⟩
  · rw [follow_other resolver platform progress plugin]
    exact kept

theorem round_keeps {resolver : Resolver} {platform : Platform} {range : List ModuleId}
    (closed : resolver.Closed platform range) {resolution : Resolution} {queue : List ModuleId}
    (ranged : ∀ id ∈ resolution.modules, id ∈ range)
    (queued : ∀ id ∈ queue, id ∈ resolution.modules) :
    Keeps range resolution.modules (resolver.round platform resolution queue).value :=
  foldlM_keeps (resolver.follow platform) (Keeps range resolution.modules) queue
    (fun _ here id member => follow_keeps closed here id (ranged id (queued id member)))
    ⟨resolution, []⟩ ⟨fun _ old => old, ranged, fun _ member => absurd member List.not_mem_nil⟩

def remaining (range : List ModuleId) (modules : ModuleSet) : Nat :=
  range.countP fun id => id ∉ modules

/-- Either a round finds nothing or fewer modules remain after it. -/
theorem remaining_lt {range : List ModuleId} {before : ModuleSet} {progress : Progress}
    (kept : Keeps range before progress) :
    2 * remaining range progress.resolution.modules + min 1 progress.found.length <
      2 * remaining range before + 1 := by
  have lost : ∀ id ∈ range, decide (id ∉ progress.resolution.modules) = true →
      decide (id ∉ before) = true := by
    intro id _ absent
    simp only [decide_eq_true_eq] at absent ⊢
    exact fun old => absent (kept.grown id old)
  cases found : progress.found with
  | nil =>
    have fewer : remaining range progress.resolution.modules ≤ remaining range before :=
      List.countP_mono_left lost
    simp only [List.length_nil]
    omega
  | cons new others =>
    have entered := kept.fresh new (by rw [found]; exact List.mem_cons_self)
    have fewer : remaining range progress.resolution.modules < remaining range before :=
      countP_lt_of_lost lost (kept.ranged new entered.1) (by simpa using entered.2)
        (by simpa using entered.1)
    simp only [List.length_cons]
    omega

/-- Rounds until one finds nothing. Each round before adds a module of the finite range. -/
def rounds (resolver : Resolver) (platform : Platform) (initial : ModuleSet)
    (bounded : resolver.Bounded platform initial) (resolution : Resolution) (queue : List ModuleId)
    (ranged : ∀ id ∈ resolution.modules, id ∈ bounded.choose)
    (queued : ∀ id ∈ queue, id ∈ resolution.modules) : Logged Resolution :=
  match queue, queued with
  | [], _ => pure resolution
  | first :: rest, queued =>
    let done := resolver.round platform resolution (first :: rest)
    have kept := round_keeps bounded.choose_spec.2 ranged queued
    let last := rounds resolver platform initial bounded done.value.close done.value.found
      kept.ranged fun id member => (kept.fresh id member).1
    done >>= fun _ => last
termination_by 2 * remaining bounded.choose resolution.modules + min 1 queue.length
decreasing_by
  have less := remaining_lt kept
  simp only [Progress.close, List.length_cons]
  omega

/-- The least set that contains `initial` and what its plugins need on `platform`. -/
def resolve (resolver : Resolver) (platform : Platform) (initial : ModuleSet)
    (bounded : resolver.Bounded platform initial) : Logged Resolution := do
  let resolution ← resolver.rounds platform initial bounded (.seed initial) initial.toList
    bounded.choose_spec.1 fun _ member => member
  Logged.report (.resolved initial.size resolution.modules.size resolution.rounds platform)
  return resolution

def ofCatalog (catalog : Catalog) (disk : Disk) (table : PlatformTable) (scope : Option ModuleId) :
    Resolver :=
  ⟨catalog.declaration disk, table, scope⟩

theorem bounded_ofCatalog (catalog : Catalog) (disk : Disk) (table : PlatformTable)
    (scope : Option ModuleId) (platform : Platform) (initial : ModuleSet) :
    (ofCatalog catalog disk table scope).Bounded platform initial := by
  refine ⟨initial.toList ++ catalog.vocabulary disk ++ table.listed,
    fun id member => ?_, fun id _ _ target member => ?_⟩
  · simp only [List.append_assoc, List.mem_append]
    exact .inl member
  · obtain ⟨needed, inside, same⟩ := List.mem_map.1 member
    subst same
    rcases ModuleSet.mem_union.1 inside with declared | extra
    · refine List.mem_append_left _ (List.mem_append_right _ ?_)
      simp only [ofCatalog] at declared
      cases found : (catalog.declaration disk id).value with
      | error failure =>
        rw [found] at declared
        simp only [declaredBy] at declared
        nomatch declared
      | ok declaration =>
        rw [found] at declared
        exact Catalog.mem_vocabulary found declared
    · exact List.mem_append_right _ (PlatformTable.mem_listed_of_mem_extra extra)

end Resolver
end BundlePlan
