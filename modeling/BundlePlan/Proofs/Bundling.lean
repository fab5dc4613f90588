import BundlePlan.Plan
import BundlePlan.Proofs.Acceptance
import BundlePlan.Proofs.Closure

/-! Planning from an accepted configuration succeeds, and the two lists of the descriptor share out
all that is needed: whatever a bundled plugin needs is bundled too or excluded on purpose, and what
is always included is never excluded. -/
namespace BundlePlan.Plan

variable {configuration : Configuration} {platform : Platform} {resolution : Resolution}
  {lookup : ModuleId → Logged (Except LookupFailure Declaration)}

private theorem mem_exclusions {id : ModuleId} : id ∈ exclusions configuration ↔
    id ∈ configuration.excludes ∧ id ∉ configuration.alwaysIncluded := ModuleSet.mem_diff

def described (configuration : Configuration) (platform : Platform) (resolution : Resolution) :
    Descriptor :=
  { Descriptor.emit resolution.modules (exclusions configuration) configuration.entryPoint
      configuration.searchPaths with platform := some platform }

private theorem build_parts (searched : configuration.searchPaths ≠ []) (platform : Platform)
    (resolution : Resolution) : (parts configuration platform resolution).build =
      .ok (described configuration platform resolution) := by
  obtain ⟨first, rest, some⟩ := List.exists_cons_of_ne_nil searched
  simp only [described, parts, Descriptor.Parts.build, some]

theorem value_describe (searched : configuration.searchPaths ≠ []) (platform : Platform)
    (resolution : Resolution) : (describe configuration platform resolution).value =
      .ok ⟨resolution, described configuration platform resolution⟩ := by
  simp only [describe, build_parts searched]
  split
  · rfl
  · rfl

theorem mem_hiddenImports {id : ModuleId} :
    id ∈ (described configuration platform resolution).hiddenImports ↔
      id ∈ resolution.modules ∧ id ∉ exclusions configuration := ModuleSet.mem_diff

private theorem mem_or_mem_of_resolved {id : ModuleId} (member : id ∈ resolution.modules) :
    id ∈ (described configuration platform resolution).hiddenImports ∨
      id ∈ (described configuration platform resolution).excludes := by
  by_cases excluded : id ∈ exclusions configuration
  · exact .inr excluded
  · exact .inl (mem_hiddenImports.2 ⟨member, excluded⟩)

/-- What a plan for this configuration makes of the modules resolved. -/
structure Divides (configuration : Configuration)
    (lookup : ModuleId → Logged (Except LookupFailure Declaration)) (platform : Platform)
    (plan : Plan) : Prop where
  resolved : ∃ bounded, plan.resolution =
    ((resolver configuration lookup).resolve platform configuration.initialModules bounded).value
  ascending : plan.descriptor.hiddenImports.Pairwise (· < ·)
  distinct : plan.descriptor.hiddenImports.Nodup
  bundled : ∀ id, id ∈ plan.descriptor.hiddenImports ↔
    id ∈ plan.resolution.modules ∧
      ¬ (id ∈ configuration.excludes ∧ id ∉ configuration.alwaysIncluded)
  ascendingExcludes : plan.descriptor.excludes.Pairwise (· < ·)
  excluded : ∀ id, id ∈ plan.descriptor.excludes ↔
    id ∈ configuration.excludes ∧ id ∉ configuration.alwaysIncluded
  disjoint : plan.descriptor.hiddenImports.Disjoint plan.descriptor.excludes
  always : ∀ id ∈ configuration.alwaysIncluded, id ∈ plan.descriptor.hiddenImports
  closed : ∀ id ∈ plan.descriptor.hiddenImports, ∀ target,
    (resolver configuration lookup).Needs platform id target →
      target ∈ plan.descriptor.hiddenImports ∨ target ∈ plan.descriptor.excludes

theorem alwaysIncluded_initial {id : ModuleId} (member : id ∈ configuration.alwaysIncluded) :
    id ∈ configuration.initialModules := ModuleSet.mem_union.2 (.inl member)

private theorem describe_divides
    (bounded : (resolver configuration lookup).Bounded platform configuration.initialModules) :
    let resolution :=
      ((resolver configuration lookup).resolve platform configuration.initialModules bounded).value
    Divides configuration lookup platform
      ⟨resolution, described configuration platform resolution⟩ := by
  intro resolution
  have accounts := Resolver.accounts_resolve bounded
  exact {
    resolved := ⟨bounded, rfl⟩
    ascending := (resolution.modules.diff (exclusions configuration)).ascending
    distinct := (resolution.modules.diff (exclusions configuration)).nodup
    bundled := fun id => mem_hiddenImports.trans (and_congr_right fun _ => not_congr mem_exclusions)
    ascendingExcludes := (exclusions configuration).ascending
    excluded := fun id => mem_exclusions
    disjoint := fun id bundled excluded => (mem_hiddenImports.1 bundled).2 excluded
    always := fun id member => by
      refine mem_hiddenImports.2 ⟨accounts.initial_mem (alwaysIncluded_initial member), ?_⟩
      exact fun excluded => (mem_exclusions.1 excluded).2 member
    closed := fun id bundled target needed => by
      have member := (mem_hiddenImports.1 bundled).1
      exact mem_or_mem_of_resolved (accounts.needed_mem member needed) }

/-- A plan is made wherever finitely many modules are reached, which they are in every catalog. -/
theorem make_divides (disk : Disk) (base : FilePath) (text : String) (configuration : Configuration)
    (accepted : (Configuration.ofText disk base text).value = .ok configuration)
    (platform : Platform) :
    (∀ lookup, ∀ finite : {id | (resolver configuration lookup).Reachable platform
        configuration.initialModules id}.Finite,
      ∃ plan, (make configuration lookup platform (Resolver.bounded_iff_finite.2 finite)).value =
          .ok plan ∧ Divides configuration lookup platform plan) ∧
    ∀ (files : Disk) (catalog : Catalog),
      ∃ plan, (ofCatalog files configuration catalog platform).value = .ok plan ∧
        Divides configuration (catalog.declaration files) platform plan := by
  have searched := Configuration.searchPaths_ne_nil accepted
  refine ⟨fun lookup finite => ?_, fun files catalog => ?_⟩
  · exact ⟨_, value_describe searched platform _, describe_divides _⟩
  · exact ⟨_, value_describe searched platform _, describe_divides _⟩

/-- A module that is always included is named among the exclusions too. -/
def overruled : String :=
  "[bundle]\nentry_point = \"m\"\nsearch_paths = [\"s\"]\n" ++
  "always_included = [\"core\"]\nexcludes = [\"core\", \"extra\"]\n"

theorem make_divides_overruled :
    ∃ configuration plan,
      (Configuration.ofText ⟨∅, []⟩ ⟨"/"⟩ overruled).value = .ok configuration ∧
      (ofConfiguration ⟨∅, []⟩ configuration .linux).value = .ok plan ∧
      ⟨"core", by decide⟩ ∈ plan.descriptor.hiddenImports ∧
      ⟨"extra", by decide⟩ ∈ plan.descriptor.excludes := by
  have read : (Configuration.ofText ⟨∅, []⟩ ⟨"/"⟩ overruled).value.toOption.map
      (fun configuration => (configuration.alwaysIncluded, configuration.excludes)) =
      some (.ofList [⟨"core", by decide⟩],
        .ofList [⟨"core", by decide⟩, ⟨"extra", by decide⟩]) := by decide +kernel
  cases outcome : (Configuration.ofText ⟨∅, []⟩ ⟨"/"⟩ overruled).value with
  | error fault =>
    rw [outcome] at read
    cases read
  | ok configuration =>
    rw [outcome] at read
    obtain ⟨always, excludes⟩ := Prod.mk.inj (Option.some.inj read)
    obtain ⟨_, catalogs⟩ := make_divides _ _ _ configuration outcome .linux
    obtain ⟨plan, made, divides⟩ := catalogs ⟨∅, []⟩ configuration.catalog
    refine ⟨configuration, plan, rfl, made, divides.always _ ?_, (divides.excluded _).2 ⟨?_, ?_⟩⟩
    · rw [always]
      decide
    · rw [excludes]
      decide
    · rw [always]
      decide

end BundlePlan.Plan
