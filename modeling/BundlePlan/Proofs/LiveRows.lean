import BundlePlan.Proofs.Bundling
import BundlePlan.Proofs.Reading

/-! What a configuration says about a module takes effect as soon as the module is resolved: the
check at loading and the choice of the modules to follow rest on the same namespace. -/
namespace BundlePlan

namespace Manifest

theorem Declares.mem_iff {manifest : Manifest} {declaration : Declaration}
    (declares : manifest.Declares declaration) {target : ModuleId} :
    target ∈ declaration.dependencies ↔ target.text ∈ manifest.dependencies.getD [] := by
  cases declaration with
  | none =>
    have given : manifest.dependencies = none := declares
    simp [given, Declaration.dependencies]
  | fixed set =>
    obtain ⟨texts, given, _, members⟩ := declares
    rw [given]
    exact members target
  | query _ => exact declares.elim

theorem parse_eq_ok {id : ModuleId} {text : String} {manifest : Manifest} :
    Manifest.parse id text = .ok manifest ↔ Manifest.ofText text = .ok manifest ∧
      (manifest.id = none ∨ manifest.id = some id.text) := by
  rw [← foreignId?_eq_none]
  cases read : Manifest.ofText text with
  | error fault => simp [Manifest.parse, read]
  | ok other =>
    cases own : other.foreignId? id with
    | some declared =>
      simp only [Manifest.parse, read, own, reduceCtorEq, Except.ok.injEq, false_iff, not_and]
      rintro rfl
      simp [own]
    | none =>
      simp only [Manifest.parse, read, own, Except.ok.injEq, iff_self_and]
      rintro rfl
      exact own

end Manifest

namespace Catalog

theorem readManifest_eq_ok {disk : Disk} {id : ModuleId} {path : FilePath}
    {declaration : Declaration} : readManifest disk id path = .ok declaration ↔
      ∃ text manifest, disk.readText path = .ok text ∧ Manifest.parse id text = .ok manifest ∧
        manifest.Declares declaration := by
  have declares (manifest : Manifest) : manifest.Declares declaration ↔
      manifest.declaration id = .ok declaration := Manifest.declaration_eq_ok.symm
  simp only [declares]
  cases read : disk.readText path with
  | error failure => cases failure <;> simp [readManifest, read]
  | ok text =>
    cases parsed : Manifest.parse id text with
    | error failure => simp [readManifest, read, parsed]
    | ok manifest => simp [readManifest, read, parsed]

theorem declaration_of_stated {catalog : Catalog} {id : ModuleId} {declaration : Declaration}
    (stated : catalog.stated.find? id = some (.ok declaration)) (disk : Disk) :
    catalog.declaration disk id = pure (.ok declaration) := by
  unfold Catalog.declaration
  rw [stated]

private theorem value_declaration_of_file {catalog : Catalog} {disk : Disk} {id : ModuleId}
    {declaration : Declaration} (unstated : catalog.stated.find? id = none) :
    (catalog.declaration disk id).value = .ok declaration ↔ ∃ directory ∈ catalog.directory,
      readManifest disk id (directory.beneath (id.text ++ ".toml")) = .ok declaration := by
  simp only [Catalog.declaration, unstated, manifestPath?]
  cases catalog.directory with
  | none => simp [pure]
  | some directory => simp

end Catalog

/-- The manifest file of the module is of use and lists the other module. -/
def Disk.FileLists (disk : Disk) (directory : Option FilePath) (id target : ModuleId) : Prop :=
  ∃ dir ∈ directory, ∃ text manifest texts,
    disk.readText (dir.beneath (id.text ++ ".toml")) = .ok text ∧
    Manifest.ofText text = .ok manifest ∧ (manifest.id = none ∨ manifest.id = some id.text) ∧
    manifest.dependencies = some texts ∧ (∀ listed ∈ texts, IsModuleId listed) ∧
    target.text ∈ texts

theorem Disk.fileLists_iff {disk : Disk} {directory : Option FilePath} {id target : ModuleId} :
    disk.FileLists directory id target ↔ ∃ declaration, (∃ dir ∈ directory,
      Catalog.readManifest disk id (dir.beneath (id.text ++ ".toml")) = .ok declaration) ∧
        target ∈ declaration.dependencies := by
  simp only [Catalog.readManifest_eq_ok, Manifest.parse_eq_ok]
  constructor
  · rintro ⟨dir, named, text, manifest, texts, read, decoded, own, given, valid, listed⟩
    obtain ⟨set, lists⟩ := exists_lists.2 valid
    have declares : manifest.Declares (.fixed set) := ⟨texts, given, lists⟩
    exact ⟨_, ⟨dir, named, text, manifest, read, ⟨decoded, own⟩, declares⟩,
      (lists.2 target).2 listed⟩
  · rintro ⟨declaration, ⟨dir, named, text, manifest, read, ⟨decoded, own⟩, declares⟩, member⟩
    have listed := declares.mem_iff.1 member
    cases given : manifest.dependencies with
    | none => simp [given] at listed
    | some texts =>
      have valid := Manifest.exists_declares.1 ⟨declaration, declares⟩ texts given
      rw [given] at listed
      exact ⟨dir, named, text, manifest, texts, read, decoded, own, given, valid, listed⟩

namespace Sections

def inline (sections : Sections) (key : String) : List String :=
  ((sections.manifests.find? key).bind Manifest.dependencies).getD []

private theorem mem_keys_of_inline {sections : Sections} {key listed : String}
    (member : listed ∈ sections.inline key) : key ∈ sections.manifests.keys := by
  by_contra absent
  rw [inline, (Dictionary.find?_eq_none_iff _).2 absent] at member
  cases member

/-- The inline manifest of a module speaks for it, and without one its manifest file does. -/
def Declared (sections : Sections) (files : Disk) (directory : Option FilePath)
    (id target : ModuleId) : Prop :=
  if id.text ∈ sections.manifests.keys then target.text ∈ sections.inline id.text
  else files.FileLists directory id target

end Sections

private theorem Resolver.Accounts.exists_kind {resolver : Resolver} {platform : Platform}
    {initial : ModuleSet} {resolution : Resolution} {id target : ModuleId}
    (accounts : Accounts resolver platform initial resolution.graph.vertices [] [] resolution)
    (member : id ∈ resolution.modules) (plugin : resolver.isPlugin id = true)
    (needed : target ∈ declaredBy (resolver.lookup id).value ∨
      target ∈ resolver.table.extra id platform) :
    target ∈ resolution.modules ∧
      ∃ kind, (∀ other, (target, other) ∈ resolution.dependenciesOf id ↔ other = kind) ∧
        (kind = .declared ↔ target ∈ declaredBy (resolver.lookup id).value) := by
  let kind : EdgeKind :=
    if target ∈ declaredBy (resolver.lookup id).value then .declared else .platform
  have reported (other : EdgeKind) :
      (target, other) ∈ resolution.dependenciesOf id ↔ other = kind := by
    rw [accounts.mem_dependenciesOf, contribution, mem_labelled]
    simp only [member, plugin, needed, true_and, kind]
  have contributed : (target, kind) ∈ resolver.contribution platform id :=
    (accounts.mem_dependenciesOf.1 ((reported kind).2 rfl)).2.2
  refine ⟨(accounts.recorded_of_contribution member plugin contributed).1, kind, reported, ?_⟩
  by_cases declared : target ∈ declaredBy (resolver.lookup id).value
  · simp [kind, declared]
  · simp [kind, declared]

namespace Configuration

variable {sections : Sections} (configuration : Configuration) {id target : ModuleId}

/-- What may be said of in a file is what resolution follows. -/
theorem isWithin_of_inNamespace {text : String} {scope : Option ModuleId} (names : Names text scope)
    (inside : InNamespace text id.text) : (scope.all fun outer => id.isWithin outer) = true := by
  obtain ⟨other, same, within⟩ := inside
  obtain rfl : other = id := ModuleId.text_inj.1 same
  cases scope with
  | none => rfl
  | some outer =>
    obtain ⟨named, spelled⟩ := names
    obtain ⟨_, sameToo, within⟩ := within.resolve_left named
    obtain rfl := ModuleId.text_inj.1 (sameToo.trans spelled.symm)
    exact within

private theorem lookup_of_inline (files : Disk) (manifests : ∀ id, Option.Rel Manifest.Declares
      (sections.manifests.find? id.text) (configuration.manifests.find? id))
    (inline : id.text ∈ sections.manifests.keys) :
    ∃ declaration, (configuration.catalog.declaration files id).value = .ok declaration ∧
      ∀ target, target ∈ declaration.dependencies ↔ target.text ∈ sections.inline id.text := by
  have both := manifests id
  cases given : sections.manifests.find? id.text with
  | none => exact absurd inline ((Dictionary.find?_eq_none_iff _).1 given)
  | some manifest =>
    cases found : configuration.manifests.find? id with
    | none =>
      rw [given, found] at both
      cases both
    | some declaration =>
      rw [given, found] at both
      cases both with
      | some declares =>
        have stated := configuration.find?_stated id
        rw [found] at stated
        refine ⟨declaration, ?_, fun target => ?_⟩
        · rw [Catalog.declaration_of_stated stated]
          rfl
        rw [declares.mem_iff, Sections.inline, given, Option.bind_some]

theorem mem_declaredBy_iff (files : Disk) (manifests : ∀ id, Option.Rel Manifest.Declares
      (sections.manifests.find? id.text) (configuration.manifests.find? id)) :
    target ∈ Resolver.declaredBy (configuration.catalog.declaration files id).value ↔
      sections.Declared files configuration.manifestDirectory id target := by
  unfold Sections.Declared
  split
  · rename_i inline
    obtain ⟨declaration, loaded, members⟩ := configuration.lookup_of_inline files manifests inline
    rw [loaded]
    exact members target
  · rename_i absent
    have both := manifests id
    rw [(Dictionary.find?_eq_none_iff _).2 absent] at both
    have unstated : configuration.catalog.stated.find? id = none := by
      rw [configuration.find?_stated]
      cases found : configuration.manifests.find? id with
      | none => rfl
      | some declaration =>
        rw [found] at both
        cases both
    rw [Resolver.mem_declaredBy, Disk.fileLists_iff]
    simp only [Catalog.value_declaration_of_file unstated]
    rfl

private theorem Acceptable.isModuleId_row {bundle : BundleSection}
    (acceptable : Acceptable sections bundle) {plugin platform listed : String}
    (member : listed ∈ sections.row plugin platform) : IsModuleId listed := by
  obtain ⟨texts, row, inside⟩ := Sections.mem_row_iff.1 member
  exact acceptable.rows _ row listed inside

private theorem Acceptable.isModuleId_inline {bundle : BundleSection}
    (acceptable : Acceptable sections bundle) {key listed : String}
    (member : listed ∈ sections.inline key) : IsModuleId listed := by
  unfold Sections.inline at member
  cases given : sections.manifests.find? key with
  | none => simp [given] at member
  | some manifest =>
    cases lists : manifest.dependencies with
    | none => simp [given, lists] at member
    | some texts =>
      have entry := (Dictionary.find?_eq_some_iff _).1 given
      have inside : listed ∈ texts := by simpa [given, lists] using member
      exact acceptable.dependencies _ entry texts lists listed inside

private theorem Acceptable.inNamespace {bundle : BundleSection}
    (acceptable : Acceptable sections bundle) {key platform : String}
    (said : (∃ texts, ((key, platform), texts) ∈ sections.rows) ∨ key ∈ sections.manifests.keys) :
    InNamespace bundle.pluginNamespace key := by
  rcases said with ⟨texts, row⟩ | inline
  · have keys := List.forall_mem_map.1 acceptable.rowKeys
    have rowKeys : ∀ row ∈ sections.rows, InNamespace bundle.pluginNamespace row.1.1 :=
      Sections.forall_rows.2 fun plugin member _ _ => keys plugin member
    exact rowKeys _ row
  · exact acceptable.manifestKeys key inline

end Configuration

namespace Plan

/-- Rows and inline manifests take effect wherever their module is resolved, whichever directory
manifests are looked for in: the module is a plugin, all that they list is resolved too and reported
as needed by it, and a module with an inline manifest can always be looked up. -/
theorem rows_live (disk files : Disk) (base : FilePath) (text : String) (sections : Sections)
    (configuration : Configuration) (decoded : Sections.ofText text = .ok sections)
    (accepted : (Configuration.ofText disk base text).value = .ok configuration)
    (directory : Option FilePath) (platform : Platform) :
    let configured := { configuration with manifestDirectory := directory }
    let lookup := configured.catalog.declaration files
    ∃ plan, (ofConfiguration files configured platform).value = .ok plan ∧
      ∀ id ∈ plan.resolution.modules,
        (∃ texts, ((id.text, platform.name), texts) ∈ sections.rows) ∨
          id.text ∈ sections.manifests.keys →
        (resolver configured lookup).isPlugin id = true ∧
        (∀ listed ∈ sections.row id.text platform.name ++ sections.inline id.text,
          ∃ target : ModuleId, target.text = listed ∧ target ∈ plan.resolution.modules ∧
            ∃ kind, (∀ other, (target, other) ∈ plan.resolution.dependenciesOf id ↔ other = kind) ∧
              (kind = .declared ↔ sections.Declared files directory id target)) ∧
        (id.text ∈ sections.manifests.keys → id ∉ plan.resolution.unavailable) := by
  intro configured lookup
  have searchedHere : configuration.searchPaths ≠ [] := Configuration.searchPaths_ne_nil accepted
  have searched : configured.searchPaths ≠ [] := searchedHere
  rw [Configuration.value_ofText decoded] at accepted
  obtain ⟨bundle, present, keeps⟩ := Configuration.ofSections_keeps accepted
  obtain ⟨_, acceptable⟩ := Configuration.acceptable_of_ok accepted
  obtain rfl := Option.some.inj (present.symm.trans acceptable.present)
  have declared (id target : ModuleId) : target ∈ Resolver.declaredBy (lookup id).value ↔
      sections.Declared files directory id target :=
    configured.mem_declaredBy_iff files keeps.manifests
  have bounded : (resolver configured lookup).Bounded platform configured.initialModules :=
    Resolver.bounded_ofCatalog configured.catalog files _ _ platform _
  let result :=
    ((resolver configured lookup).resolve platform configured.initialModules bounded).value
  have accounts := Resolver.accounts_resolve bounded
  refine ⟨_, value_describe searched platform result, ?_⟩
  intro id member said
  -- The namespace that the keys were checked against is the one that decides what is followed.
  have plugin : (resolver configured lookup).isPlugin id = true :=
    Configuration.isWithin_of_inNamespace keeps.pluginNamespace (acceptable.inNamespace said)
  have reported (target : ModuleId) (needed : target ∈ Resolver.declaredBy (lookup id).value ∨
      target ∈ configured.platformTable.extra id platform) :
      target ∈ result.modules ∧ ∃ kind,
        (∀ other, (target, other) ∈ result.dependenciesOf id ↔ other = kind) ∧
        (kind = .declared ↔ sections.Declared files directory id target) := by
    obtain ⟨resolved, kind, labelled, own⟩ := accounts.exists_kind member plugin needed
    exact ⟨resolved, kind, labelled, own.trans (declared id target)⟩
  refine ⟨plugin, fun listed inside => ?_, fun inline unavailable => ?_⟩
  · rcases List.mem_append.1 inside with inRow | inManifest
    · obtain ⟨target, rfl⟩ := acceptable.isModuleId_row inRow
      have extra := (keeps.extra id platform target).2 inRow
      exact ⟨target, rfl, reported target (.inr extra)⟩
    · obtain ⟨target, rfl⟩ := acceptable.isModuleId_inline inManifest
      have inline := Sections.mem_keys_of_inline inManifest
      have listed : target ∈ Resolver.declaredBy (lookup id).value := by
        rw [declared, Sections.Declared, if_pos inline]
        exact inManifest
      exact ⟨target, rfl, reported target (.inl listed)⟩
  · obtain ⟨declaration, loaded, _⟩ := configured.lookup_of_inline files keeps.manifests inline
    obtain ⟨_, _, failure, failed⟩ := accounts.mem_unavailable_iff.1 unavailable
    have same : Except.ok declaration = Except.error failure := loaded.symm.trans failed
    cases same

/-- A plugin with a row for one platform and an inline manifest that lists another module. -/
def furnished : String :=
  "bundle = \x7bentry_point = \"m\", search_paths = [\"s\"], plugin_namespace = \"e\", " ++
  "always_included = [\"e\"]\x7d\nplatform_dependencies.e.linux = [\"a\"]\n" ++
  "manifests.e.dependencies = [\"b\"]\n"

private theorem furnished_accepted :
    ∃ sections configuration, Sections.ofText furnished = .ok sections ∧
      (Configuration.ofText ⟨∅, []⟩ ⟨"/"⟩ furnished).value = .ok configuration ∧
      sections.row "e" Platform.linux.name = ["a"] ∧ sections.inline "e" = ["b"] ∧
      configuration.alwaysIncluded = .ofList [⟨"e", by decide⟩] := by
  have read : (Sections.ofText furnished).toOption.map (fun sections =>
      (sections.row "e" Platform.linux.name, sections.inline "e",
        (Configuration.ofSections ⟨"/"⟩ sections).toOption.map Configuration.alwaysIncluded)) =
      some (["a"], ["b"], some (.ofList [⟨"e", by decide⟩])) := by decide +kernel
  cases decoded : Sections.ofText furnished with
  | error fault =>
    rw [decoded] at read
    cases read
  | ok sections =>
    rw [decoded] at read
    obtain ⟨row, rest⟩ := Prod.mk.inj (Option.some.inj read)
    obtain ⟨inline, outcome⟩ := Prod.mk.inj rest
    cases checked : Configuration.ofSections ⟨"/"⟩ sections with
    | error fault =>
      rw [checked] at outcome
      cases outcome
    | ok configuration =>
      rw [checked] at outcome
      refine ⟨sections, configuration, rfl, ?_, row, inline, Option.some.inj outcome⟩
      exact (Configuration.value_ofText decoded).trans checked

theorem rows_live_furnished :
    ∃ configuration plan,
      (Configuration.ofText ⟨∅, []⟩ ⟨"/"⟩ furnished).value = .ok configuration ∧
      (ofConfiguration ⟨∅, []⟩ configuration .linux).value = .ok plan ∧
      (⟨"a", by decide⟩, .platform) ∈ plan.resolution.dependenciesOf ⟨"e", by decide⟩ ∧
      (⟨"b", by decide⟩, .declared) ∈ plan.resolution.dependenciesOf ⟨"e", by decide⟩ ∧
      ⟨"e", by decide⟩ ∉ plan.resolution.unavailable := by
  obtain ⟨sections, configuration, decoded, accepted, row, inline, always⟩ := furnished_accepted
  obtain ⟨plan, made, live⟩ := rows_live ⟨∅, []⟩ ⟨∅, []⟩ ⟨"/"⟩ furnished sections configuration
    decoded accepted configuration.manifestDirectory .linux
  have inRow : "a" ∈ sections.row "e" Platform.linux.name := by simp [row]
  have inManifest : "b" ∈ sections.inline "e" := by simp [inline]
  have keyed := Sections.mem_keys_of_inline inManifest
  have member : ⟨"e", by decide⟩ ∈ plan.resolution.modules := by
    have described := value_describe (Configuration.searchPaths_ne_nil accepted) .linux
    obtain rfl := Except.ok.inj ((described _).symm.trans made)
    refine (Resolver.accounts_resolve _).initial_mem (alwaysIncluded_initial ?_)
    rw [always]
    decide
  obtain ⟨_, listed, available⟩ := live _ member (.inr keyed)
  obtain ⟨first, spelled, _, kind, reported, own⟩ := listed "a" (List.mem_append.2 (.inl inRow))
  obtain ⟨second, spelledToo, _, other, reportedToo, ownToo⟩ :=
    listed "b" (List.mem_append.2 (.inr inManifest))
  obtain rfl : first = ⟨"a", by decide⟩ := ModuleId.text_inj.1 spelled
  obtain rfl : second = ⟨"b", by decide⟩ := ModuleId.text_inj.1 spelledToo
  rw [Sections.Declared, if_pos keyed, inline] at own ownToo
  have notDeclared : kind = .platform := by
    cases kind with
    | platform => rfl
    | declared => exact absurd (own.1 rfl) (by decide)
  have declared : other = .declared := ownToo.2 (by decide)
  exact ⟨configuration, plan, accepted, made, (reported _).2 notDeclared.symm,
    (reportedToo _).2 declared.symm, available keyed⟩

end Plan
end BundlePlan
