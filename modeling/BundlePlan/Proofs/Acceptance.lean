import BundlePlan.Configuration

/-! When a configuration is accepted: every check has passed, and each part of the outcome is what
its check has read. -/
namespace BundlePlan.Configuration

section Outcomes

variable {ε α β : Type} {first : Except ε α} {next : α → Except ε β} {change : α → β} {result : β}
  {fault : ε}

@[simp] theorem pure_eq_ok (a : α) : (pure a : Except ε α) = .ok a := rfl

@[simp] theorem ok_bind (a : α) (next : α → Except ε β) : .ok a >>= next = next a := rfl

@[simp] theorem error_bind (fault : ε) (next : α → Except ε β) :
    .error fault >>= next = .error fault := rfl

@[simp] theorem bind_eq_ok :
    first >>= next = .ok result ↔ ∃ value, first = .ok value ∧ next value = .ok result := by
  cases first with
  | error fault =>
    constructor
    · intro failed
      cases failed
    · rintro ⟨_, failed, _⟩
      cases failed
  | ok value =>
    refine ⟨fun passed => ⟨value, rfl, passed⟩, ?_⟩
    rintro ⟨_, same, passed⟩
    cases same
    exact passed

@[simp] theorem bind_eq_error :
    first >>= next = .error fault ↔
      first = .error fault ∨ ∃ value, first = .ok value ∧ next value = .error fault := by
  cases first with
  | error other =>
    constructor
    · intro failed
      exact .inl (congrArg Except.error (Except.error.inj failed))
    · rintro (failed | ⟨_, passed, _⟩)
      · exact congrArg Except.error (Except.error.inj failed)
      · cases passed
  | ok value =>
    refine ⟨fun failed => .inr ⟨value, rfl, failed⟩, ?_⟩
    rintro (failed | ⟨_, same, failed⟩)
    · cases failed
    · cases same
      exact failed

@[simp] theorem map_eq_ok :
    first.map change = .ok result ↔ ∃ value, first = .ok value ∧ change value = result := by
  cases first with
  | error fault => simp [Except.map]
  | ok value => simp [Except.map]

@[simp] theorem map_eq_error :
    first.map change = .error fault ↔ first = .error fault := by
  cases first with
  | error other => simp [Except.map]
  | ok value => simp [Except.map]

@[simp] theorem mapM_cons_eq_ok {read : α → Except ε β} {a : α} {rest : List α} {all : List β} :
    (a :: rest).mapM read = .ok all ↔
      ∃ b others, read a = .ok b ∧ rest.mapM read = .ok others ∧ b :: others = all := by
  simp [List.mapM_cons]

end Outcomes

/-- A fold fails where its first step fails. -/
theorem foldlM_eq_error {ε σ β : Type} {step : σ → β → Except ε σ} {items : List β} {start : σ}
    {fault : ε} : items.foldlM step start = .error fault ↔
      ∃ before item after reached, items = before ++ item :: after ∧
        before.foldlM step start = .ok reached ∧ step reached item = .error fault := by
  induction items generalizing start with
  | nil =>
    constructor
    · intro failed
      cases failed
    · rintro ⟨before, item, after, _, split, _⟩
      exact absurd split.symm (by simp)
  | cons first rest ih =>
    rw [List.foldlM_cons, bind_eq_error]
    constructor
    · rintro (failed | ⟨next, passed, failed⟩)
      · exact ⟨[], first, rest, start, rfl, rfl, failed⟩
      · obtain ⟨before, item, after, reached, rfl, walked, stopped⟩ := ih.1 failed
        refine ⟨first :: before, item, after, reached, rfl, ?_, stopped⟩
        exact bind_eq_ok.2 ⟨next, passed, walked⟩
    · rintro ⟨before, item, after, reached, split, walked, stopped⟩
      cases before with
      | nil =>
        obtain ⟨rfl, rfl⟩ := List.cons.inj split
        cases walked
        exact .inl stopped
      | cons head tail =>
        obtain ⟨rfl, rfl⟩ := List.cons.inj split
        obtain ⟨next, passed, walkedOn⟩ := bind_eq_ok.1 walked
        exact .inr ⟨next, passed, ih.2 ⟨tail, item, after, reached, rfl, walkedOn, stopped⟩⟩

@[simp] theorem requireGiven_eq_ok {α : Type} {field : String} {given : Option α} {value : α} :
    requireGiven field given = .ok value ↔ given = some value := by
  cases given with
  | none => simp only [requireGiven, reduceCtorEq]
  | some other =>
    simp only [requireGiven, Except.ok.injEq, Option.some.injEq]

/-- A configuration read from sections in which no check has found a fault. -/
structure Accepted (base : FilePath) (sections : Sections) (bundle : BundleSection)
    (entryPoint : FilePath) (configuration : Configuration) : Prop where
  present : sections.bundle = some bundle
  entered : bundle.entryPoint = some entryPoint
  named : entryPoint.text ≠ ""
  searched : bundle.searchPaths ≠ []
  scope : readNamespace "bundle.plugin_namespace" bundle.pluginNamespace =
    .ok configuration.pluginNamespace
  alwaysIncluded : requireIds "bundle.always_included" bundle.alwaysIncluded =
    .ok configuration.alwaysIncluded
  excludes : requireIds "bundle.excludes" bundle.excludes = .ok configuration.excludes
  plugins : requirePlugins "extensions" configuration.pluginNamespace sections.extensions.enabled =
    .ok ()
  rows : sections.platformDependencies.entries.foldlM (readRows configuration.pluginNamespace) ∅ =
    .ok configuration.platformTable
  manifests : sections.manifests.entries.foldlM (readManifest configuration.pluginNamespace) ∅ =
    .ok configuration.manifests
  enabled : configuration.enabledPlugins = sections.extensions.enabled
  entryPoint : configuration.entryPoint = base.absoluteFrom entryPoint
  searchPaths : configuration.searchPaths = bundle.searchPaths.map base.absoluteFrom
  directory : configuration.manifestDirectory = bundle.manifestDirectory.map base.absoluteFrom

theorem ofSections_eq_ok {base : FilePath} {sections : Sections} {configuration : Configuration} :
    ofSections base sections = .ok configuration ↔
      ∃ bundle entryPoint, Accepted base sections bundle entryPoint configuration := by
  simp only [ofSections, bind_eq_ok, requireGiven_eq_ok, Option.filter_eq_some_iff]
  constructor
  · rintro ⟨bundle, present, entryPoint, ⟨entered, named⟩, rest⟩
    split at rest
    · cases rest
    · rename_i searched
      simp only [bind_eq_ok] at rest
      obtain ⟨scope, readScope, always, readAlways, excludes, readExcludes, _, plugins, table,
        readTable, manifests, readManifests, made⟩ := rest
      obtain rfl := Except.ok.inj made
      refine ⟨bundle, entryPoint, {
        present := present
        entered := entered
        named := of_decide_eq_true named
        searched := fun none => searched (List.isEmpty_iff.2 none)
        scope := readScope
        alwaysIncluded := readAlways
        excludes := readExcludes
        plugins := plugins
        rows := readTable
        manifests := readManifests
        enabled := rfl
        entryPoint := rfl
        searchPaths := rfl
        directory := rfl }⟩
  · rintro ⟨bundle, entryPoint, accepted⟩
    refine ⟨bundle, accepted.present, entryPoint,
      ⟨accepted.entered, decide_eq_true accepted.named⟩, ?_⟩
    rw [if_neg fun none => accepted.searched (List.isEmpty_iff.1 none)]
    simp only [bind_eq_ok]
    refine ⟨_, accepted.scope, _, accepted.alwaysIncluded, _, accepted.excludes, _,
      accepted.plugins, _, accepted.rows, _, accepted.manifests, ?_⟩
    rw [← accepted.enabled, ← accepted.entryPoint, ← accepted.searchPaths, ← accepted.directory]
    rfl

theorem ofText_eq_ok {disk : Disk} {base : FilePath} {text : String}
    {configuration : Configuration} :
    (ofText disk base text).value = .ok configuration ↔
      ∃ sections, Sections.ofText text = .ok sections ∧
        ofSections base sections = .ok configuration := by
  cases read : Sections.ofText text with
  | error fault => simp only [ofText, read, pure, reduceCtorEq, false_and, exists_false]
  | ok sections =>
    simp only [ofText, read, Except.ok.injEq, exists_eq_left']
    cases checked : ofSections base sections with
    | error fault => exact Iff.rfl
    | ok accepted =>
      dsimp only
      split
      · exact Iff.rfl
      · exact Iff.rfl

theorem searchPaths_ne_nil {disk : Disk} {base : FilePath} {text : String}
    {configuration : Configuration} (read : (ofText disk base text).value = .ok configuration) :
    configuration.searchPaths ≠ [] := by
  obtain ⟨sections, _, checked⟩ := ofText_eq_ok.1 read
  obtain ⟨bundle, entryPoint, accepted⟩ := ofSections_eq_ok.1 checked
  rw [accepted.searchPaths]
  exact fun empty => accepted.searched (List.map_eq_nil_iff.1 empty)

end BundlePlan.Configuration
