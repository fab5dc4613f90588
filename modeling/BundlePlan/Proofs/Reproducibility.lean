import BundlePlan.Proofs.Bundling
import BundlePlan.Proofs.Likeness
import BundlePlan.Proofs.Locality

/-! In which order a file lists things, and how often, makes no difference, nor does the form in
which it enables plugins: files that say the same are accepted or rejected together, and all that is
planned from the one is planned from the other. -/
namespace BundlePlan

namespace Configuration

variable {first second : Sections} {bundle bundleToo : BundleSection} {base : FilePath}
  {configuration other : Configuration}

private theorem Acceptable.of_alike (acceptable : Acceptable first bundle)
    (alike : first.Alike second) : ∃ bundleToo, Acceptable second bundleToo := by
  obtain ⟨bundleToo, present, same⟩ := exists_of_rel alike.bundle acceptable.present
  have back := alike.symm
  refine ⟨bundleToo, {
    present := present
    entryPoint := by rw [← same.entryPoint]; exact acceptable.entryPoint
    searchPaths := by rw [← same.searchPaths]; exact acceptable.searchPaths
    pluginNamespace := by rw [← same.pluginNamespace]; exact acceptable.pluginNamespace
    alwaysIncluded := ?_
    excludes := ?_
    plugins := ?_
    rowKeys := ?_
    manifestKeys := ?_
    platforms := ?_
    rows := ?_
    dependencies := ?_
    ownIds := ?_ }⟩
  · intro text member
    exact acceptable.alwaysIncluded text ((same.alwaysIncluded text).2 member)
  · intro text member
    exact acceptable.excludes text ((same.excludes text).2 member)
  · intro name member isPublic
    rw [← same.pluginNamespace]
    have inside := (alike.plugins name).2 (ExtensionsSection.mem_publicPlugins.2 ⟨member, isPublic⟩)
    exact acceptable.plugins name (ExtensionsSection.mem_publicPlugins.1 inside).1 isPublic
  · intro plugin member
    rw [← same.pluginNamespace]
    exact acceptable.rowKeys plugin (back.rows.mem_keys member)
  · intro id member
    rw [← same.pluginNamespace]
    exact acceptable.manifestKeys id (back.manifests.mem_keys member)
  · intro row member
    obtain ⟨texts, inside, _⟩ := back.exists_row member
    exact acceptable.platforms (row.1, texts) inside
  · intro row member text listed
    obtain ⟨texts, inside, sameTexts⟩ := back.exists_row member
    exact acceptable.rows _ inside text ((sameTexts text).1 listed)
  · intro entry member texts given text listed
    obtain ⟨manifest, inside, alikeToo⟩ := back.manifests.exists_entry member
    obtain ⟨others, givenToo, sameTexts⟩ := exists_of_rel alikeToo.dependencies given
    exact acceptable.dependencies _ inside others givenToo text ((sameTexts text).1 listed)
  · intro entry member
    obtain ⟨manifest, inside, alikeToo⟩ := back.manifests.exists_entry member
    rw [alikeToo.id]
    exact acceptable.ownIds _ inside

private theorem exists_ok_of_alike (alike : first.Alike second)
    (accepted : ofSections base first = .ok configuration) :
    ∃ other, ofSections base second = .ok other := by
  obtain ⟨bundle, acceptable⟩ := acceptable_of_ok accepted
  obtain ⟨bundleToo, acceptableToo⟩ := acceptable.of_alike alike
  exact acceptableToo.exists_ok base

/-- Nothing that a plan is made from tells the two configurations apart. -/
structure Equivalent (first second : Configuration) : Prop where
  entryPoint : first.entryPoint = second.entryPoint
  searchPaths : first.searchPaths = second.searchPaths
  pluginNamespace : first.pluginNamespace = second.pluginNamespace
  alwaysIncluded : first.alwaysIncluded = second.alwaysIncluded
  excludes : first.excludes = second.excludes
  initialModules : first.initialModules = second.initialModules
  extra : ∀ plugin platform,
    first.platformTable.extra plugin platform = second.platformTable.extra plugin platform
  declaration : ∀ files, first.catalog.declaration files = second.catalog.declaration files

theorem Names.unique {text : String} {scope scopeToo : Option ModuleId} (names : Names text scope)
    (namesToo : Names text scopeToo) : scope = scopeToo := by
  cases scope with
  | none =>
    cases scopeToo with
    | none => rfl
    | some id => exact absurd names namesToo.1
  | some id =>
    cases scopeToo with
    | none => exact absurd namesToo names.1
    | some other => rw [ModuleId.text_inj.1 (names.2.trans namesToo.2.symm)]

theorem declares_unique {manifest manifestToo : Manifest} (alike : manifest.Alike manifestToo)
    {declaration declarationToo : Declaration} (declares : manifest.Declares declaration)
    (declaresToo : manifestToo.Declares declarationToo) : declaration = declarationToo := by
  have given := alike.dependencies
  cases declaration with
  | none =>
    have none : manifest.dependencies = none := declares
    rw [none] at given
    cases declarationToo with
    | none => rfl
    | fixed set =>
      obtain ⟨texts, some, _⟩ := declaresToo
      rw [some] at given
      cases given
    | query _ => exact declaresToo.elim
  | fixed set =>
    obtain ⟨texts, some, _, members⟩ := declares
    obtain ⟨textsToo, someToo, same⟩ := exists_of_rel given some
    cases declarationToo with
    | none =>
      have none : manifestToo.dependencies = none := declaresToo
      rw [none] at someToo
      cases someToo
    | fixed setToo =>
      obtain ⟨others, someOthers, _, membersToo⟩ := declaresToo
      obtain rfl := Option.some.inj (someToo.symm.trans someOthers)
      apply congrArg Declaration.fixed
      apply ModuleSet.ext_mem
      intro id
      rw [members, membersToo]
      exact same id.text
    | query _ => exact declaresToo.elim
  | query _ => exact declares.elim

private theorem mem_initialModules
    (enabled : configuration.enabledPlugins = first.extensions.enabled)
    {id : ModuleId} : id ∈ configuration.initialModules ↔ id ∈ configuration.alwaysIncluded ∨
      ∃ name ∈ first.extensions.publicPlugins, configuration.pluginModule? name = some id := by
  simp [initialModules, enabled, ExtensionsSection.publicPlugins]

private theorem declaration_congr
    (stated : ∀ id, configuration.manifests.find? id = other.manifests.find? id)
    (directory : configuration.manifestDirectory = other.manifestDirectory) (files : Disk) :
    configuration.catalog.declaration files = other.catalog.declaration files := by
  have same : configuration.catalog.directory = other.catalog.directory := directory
  funext id
  simp only [Catalog.declaration, find?_stated, stated, Catalog.manifestPath?, same]

private theorem Keeps.equivalent (alike : first.Alike second) (same : bundle.Alike bundleToo)
    (keeps : Keeps base first bundle configuration) (keepsToo : Keeps base second bundleToo other) :
    Equivalent configuration other := by
  have scope : configuration.pluginNamespace = other.pluginNamespace := by
    apply keeps.pluginNamespace.unique
    rw [same.pluginNamespace]
    exact keepsToo.pluginNamespace
  have always : configuration.alwaysIncluded = other.alwaysIncluded := by
    apply ModuleSet.ext_mem
    intro id
    rw [keeps.alwaysIncluded, keepsToo.alwaysIncluded]
    exact same.alwaysIncluded id.text
  refine {
    entryPoint := ?_
    searchPaths := ?_
    pluginNamespace := scope
    alwaysIncluded := always
    excludes := ?_
    initialModules := ?_
    extra := ?_
    declaration := ?_ }
  · apply Option.some.inj
    rw [← keeps.entryPoint, ← keepsToo.entryPoint, same.entryPoint]
  · rw [← keeps.searchPaths, ← keepsToo.searchPaths, same.searchPaths]
  · apply ModuleSet.ext_mem
    intro id
    rw [keeps.excludes, keepsToo.excludes]
    exact same.excludes id.text
  · apply ModuleSet.ext_mem
    intro id
    rw [mem_initialModules keeps.enabled, mem_initialModules keepsToo.enabled, always]
    apply or_congr_right
    apply exists_congr
    intro name
    rw [pluginModule?, pluginModule?, scope]
    exact and_congr_left fun _ => alike.plugins name
  · intro plugin platform
    apply ModuleSet.ext_mem
    intro target
    rw [keeps.extra, keepsToo.extra]
    exact ⟨alike.mem_row, alike.symm.mem_row⟩
  · intro files
    apply declaration_congr
    · intro id
      exact eq_of_rel (alike.manifests id.text) (keeps.manifests id) (keepsToo.manifests id)
        fun _ _ alikeToo _ _ => declares_unique alikeToo
    · rw [← keeps.manifestDirectory, ← keepsToo.manifestDirectory, same.manifestDirectory]

private theorem equivalent_of_alike (alike : first.Alike second)
    (accepted : ofSections base first = .ok configuration)
    (acceptedToo : ofSections base second = .ok other) : Equivalent configuration other := by
  obtain ⟨bundle, present, keeps⟩ := ofSections_keeps accepted
  obtain ⟨bundleToo, presentToo, keepsToo⟩ := ofSections_keeps acceptedToo
  obtain ⟨_, found, same⟩ := exists_of_rel alike.bundle present
  obtain rfl := Option.some.inj (found.symm.trans presentToo)
  exact keeps.equivalent alike same keepsToo

/-- Two files that say the same, or of which neither can be read. -/
def ReadAlike (text textToo : String) : Prop :=
  Option.Rel Sections.Alike (Sections.ofText text).toOption (Sections.ofText textToo).toOption

instance (text textToo : String) : Decidable (ReadAlike text textToo) :=
  inferInstanceAs (Decidable (Option.Rel Sections.Alike _ _))

private theorem ReadAlike.symm {text textToo : String} (alike : ReadAlike text textToo) :
    ReadAlike textToo text := rel_symm (fun _ _ same => same.symm) alike

private theorem ReadAlike.accepted {text textToo : String} {disk : Disk}
    (alike : ReadAlike text textToo)
    (accepted : (ofText disk base text).value = .ok configuration) :
    ∃ other, (ofText disk base textToo).value = .ok other ∧ Equivalent configuration other := by
  obtain ⟨first, decoded, checked⟩ := ofText_eq_ok.1 accepted
  have given : (Sections.ofText text).toOption = some first := congrArg Except.toOption decoded
  obtain ⟨second, givenToo, same⟩ := exists_of_rel alike given
  have decodedToo : Sections.ofText textToo = .ok second := by
    cases read : Sections.ofText textToo with
    | error fault =>
      rw [read] at givenToo
      cases givenToo
    | ok sections =>
      rw [read] at givenToo
      exact congrArg Except.ok (Option.some.inj givenToo)
  obtain ⟨other, checkedToo⟩ := exists_ok_of_alike same checked
  exact ⟨other, ofText_eq_ok.2 ⟨second, decodedToo, checkedToo⟩,
    equivalent_of_alike same checked checkedToo⟩

end Configuration

namespace Resolver

variable {first second : Resolver} {platform : Platform}

private theorem follow_congr (scope : first.scope = second.scope)
    (lookup : first.lookup = second.lookup)
    (extra : ∀ id, first.table.extra id platform = second.table.extra id platform) :
    first.follow platform = second.follow platform := by
  funext progress id
  simp only [follow, isPlugin_congr scope, lookup, extra]

private theorem rounds_congr (same : first.follow platform = second.follow platform)
    {initial : ModuleSet} (bounded : first.Bounded platform initial)
    (boundedToo : second.Bounded platform initial) (resolution : Resolution) (queue : List ModuleId)
    (ranged : ∀ id ∈ resolution.modules, id ∈ bounded.choose)
    (queued : ∀ id ∈ queue, id ∈ resolution.modules) (resolutionToo : Resolution)
    (queueToo : List ModuleId) (rangedToo : ∀ id ∈ resolutionToo.modules, id ∈ boundedToo.choose)
    (queuedToo : ∀ id ∈ queueToo, id ∈ resolutionToo.modules)
    (resolutions : resolution = resolutionToo) (queues : queue = queueToo) :
    first.rounds platform initial bounded resolution queue ranged queued =
      second.rounds platform initial boundedToo resolutionToo queueToo rangedToo queuedToo := by
  -- Equal arguments are not the same ones: the bounds of the two runs are about ranges of their own.
  induction resolution, queue, ranged, queued using rounds.induct
    generalizing resolutionToo queueToo with
  | case1 resolution ranged queued =>
    subst resolutions queues
    rw [rounds.eq_1, rounds.eq_1]
  | case2 resolution ranged next rest queued done kept _ ih =>
    subst resolutions queues
    have turn : first.round platform resolution (next :: rest) =
        second.round platform resolution (next :: rest) := by
      unfold round
      rw [same]
    have keptToo := round_keeps boundedToo.choose_spec.2 rangedToo queuedToo
    let doneToo := (second.round platform resolution (next :: rest)).value
    have last := ih doneToo.close doneToo.found keptToo.ranged
      (fun id member => (keptToo.fresh id member).1)
      (congrArg (fun done => done.value.close) turn) (congrArg (fun done => done.value.found) turn)
    rw [rounds.eq_2, rounds.eq_2]
    exact congrArg₂ (fun (first : Logged Progress) (rest : Logged Resolution) =>
      first >>= fun _ => rest) turn last

private theorem resolve_congr (same : first.follow platform = second.follow platform)
    {initial initialToo : ModuleSet} (initials : initial = initialToo)
    (bounded : first.Bounded platform initial) (boundedToo : second.Bounded platform initialToo) :
    first.resolve platform initial bounded = second.resolve platform initialToo boundedToo := by
  subst initials
  have run := rounds_congr same bounded boundedToo (.seed initial) initial.toList
    bounded.choose_spec.1 (fun _ member => member) (.seed initial) initial.toList
    boundedToo.choose_spec.1 (fun _ member => member) rfl rfl
  exact congrArg (· >>= _) run

end Resolver

namespace Plan

variable {configuration other : Configuration}

private theorem described_congr (equivalent : configuration.Equivalent other) (platform : Platform)
    (resolution : Resolution) :
    described configuration platform resolution = described other platform resolution := by
  simp only [described, exclusions, equivalent.alwaysIncluded, equivalent.excludes,
    equivalent.entryPoint, equivalent.searchPaths]

theorem value_ofConfiguration (searched : configuration.searchPaths ≠ []) (files : Disk)
    (platform : Platform) :
    let resolver := resolver configuration (configuration.catalog.declaration files)
    ∃ bounded : resolver.Bounded platform configuration.initialModules,
      let resolution := (resolver.resolve platform configuration.initialModules bounded).value
      (ofConfiguration files configuration platform).value =
        .ok ⟨resolution, described configuration platform resolution⟩ :=
  ⟨_, value_describe searched platform _⟩

private theorem ofConfiguration_congr (equivalent : configuration.Equivalent other)
    (searched : configuration.searchPaths ≠ []) (files : Disk) (platform : Platform) :
    ∃ plan, (ofConfiguration files configuration platform).value = .ok plan ∧
      (ofConfiguration files other platform).value = .ok plan := by
  have searchedToo : other.searchPaths ≠ [] := by
    rw [← equivalent.searchPaths]
    exact searched
  obtain ⟨bounded, made⟩ := value_ofConfiguration searched files platform
  obtain ⟨boundedToo, madeToo⟩ := value_ofConfiguration searchedToo files platform
  have steps : (resolver configuration (configuration.catalog.declaration files)).follow platform =
      (resolver other (other.catalog.declaration files)).follow platform :=
    Resolver.follow_congr equivalent.pluginNamespace (equivalent.declaration files)
      fun id => equivalent.extra id platform
  have run := Resolver.resolve_congr steps equivalent.initialModules bounded boundedToo
  refine ⟨_, made, ?_⟩
  rw [madeToo, ← run, described_congr equivalent]

/-- Two files that say the same are both accepted or both rejected; and from the same manifests the
same is planned on each platform, down to the order in which modules are found and to the graph. -/
theorem plan_eq_of_alike (text textToo : String) (alike : Configuration.ReadAlike text textToo)
    (disk : Disk) (base : FilePath) :
    ((∃ configuration, (Configuration.ofText disk base text).value = .ok configuration) ↔
      ∃ other, (Configuration.ofText disk base textToo).value = .ok other) ∧
    ∀ configuration other, (Configuration.ofText disk base text).value = .ok configuration →
      (Configuration.ofText disk base textToo).value = .ok other →
      ∀ files platform, ∃ plan, (ofConfiguration files configuration platform).value = .ok plan ∧
        (ofConfiguration files other platform).value = .ok plan := by
  refine ⟨⟨?_, ?_⟩, ?_⟩
  · rintro ⟨configuration, accepted⟩
    obtain ⟨other, acceptedToo, _⟩ := alike.accepted accepted
    exact ⟨other, acceptedToo⟩
  · rintro ⟨other, accepted⟩
    obtain ⟨configuration, acceptedToo, _⟩ := alike.symm.accepted accepted
    exact ⟨configuration, acceptedToo⟩
  · intro configuration other accepted acceptedToo files platform
    obtain ⟨found, same, equivalent⟩ := alike.accepted accepted
    obtain rfl := Except.ok.inj (same.symm.trans acceptedToo)
    have searched := Configuration.searchPaths_ne_nil accepted
    exact ofConfiguration_congr equivalent searched files platform

/-- A private plugin is listed, and another one twice. -/
def listed : String :=
  "bundle = \x7bentry_point = \"m\", search_paths = [\"s\"]\x7d\n" ++
  "extensions = [\"b\", \"_p\", \"a\", \"b\"]\nplatform_dependencies.a.linux = [\"d\", \"c\"]\n"

/-- The same plugins in a table, in which another one is not enabled. -/
def tabled : String :=
  "bundle = \x7bentry_point = \"m\", search_paths = [\"s\"]\x7d\n" ++
  "extensions = \x7ba = \x7b\x7d, o.enabled = false, b = \x7b\x7d\x7d\n" ++
  "platform_dependencies.a.linux = [\"c\", \"d\", \"c\"]\n"

theorem plan_eq_of_alike_tabled :
    Configuration.ReadAlike listed tabled ∧ ∃ configuration other plan,
      (Configuration.ofText ⟨∅, []⟩ ⟨"/"⟩ listed).value = .ok configuration ∧
      (Configuration.ofText ⟨∅, []⟩ ⟨"/"⟩ tabled).value = .ok other ∧
      (ofConfiguration ⟨∅, []⟩ configuration .linux).value = .ok plan ∧
      (ofConfiguration ⟨∅, []⟩ other .linux).value = .ok plan := by
  have read : Configuration.ReadAlike listed tabled ∧
      (Configuration.ofText ⟨∅, []⟩ ⟨"/"⟩ listed).value.isOk = true := by decide +kernel
  obtain ⟨alike, accepted⟩ := read
  obtain ⟨either, plans⟩ := plan_eq_of_alike listed tabled alike ⟨∅, []⟩ ⟨"/"⟩
  cases outcome : (Configuration.ofText ⟨∅, []⟩ ⟨"/"⟩ listed).value with
  | error fault =>
    rw [outcome] at accepted
    cases accepted
  | ok configuration =>
    obtain ⟨other, outcomeToo⟩ := either.1 ⟨configuration, outcome⟩
    obtain ⟨plan, made, madeToo⟩ := plans configuration other outcome outcomeToo ⟨∅, []⟩ .linux
    exact ⟨alike, configuration, other, plan, rfl, outcomeToo, made, madeToo⟩

end Plan
end BundlePlan
