import BundlePlan.Plan
import BundlePlan.Proofs.Reading
import BundlePlan.Proofs.Segments
import BundlePlan.Proofs.TableOrder

/-! Which plugins a file enables, and which modules that makes initial ones: every enabled plugin
other than a private one, each under a name of its own, and nothing else but what is always
included. The names come in the order of a list, or in ascending order from a table. -/
namespace BundlePlan

namespace Sections

open Toml BundlePlan.Configuration

variable {entries options : List (String × Value)} {sections : Sections} {field : String}

theorem knownFields_eq_ok {names : List String} {fields : Fields}
    (known : knownFields names entries = .ok fields) : entries = fields := by
  unfold knownFields at known
  split at known
  · cases known
  · exact Except.ok.inj known

def Disables (options : Value) : Prop :=
  ∃ entries, options = .table entries ∧ entry? entries "enabled" = some (.boolean false)

/-- What the part of a document about the extensions enables: the names as they are listed, or in
ascending order the keys of a table whose options do not disable them. -/
def Enables (part : Option Value) (names : List String) : Prop :=
  match part with
  | none => names = []
  | some (.array items) => items = names.map .string
  | some (.table options) => names.Pairwise (· < ·) ∧
      ∀ name, name ∈ names ↔ ∃ value, (name, value) ∈ options ∧ ¬ Disables value
  | _ => False

def extensionsPart (entries : List (String × Value)) : Option Value := entry? entries "extensions"

theorem asTexts_eq_ok {items : List Value} {texts : List String} :
    Value.asTexts field (.array items) = .ok texts ↔ texts.map .string = items :=
  mapM_eq_ok fun value text => by cases value <;> simp [Value.asText, eq_comm]

theorem readOptions_eq_ok {value : Value} {flag : Bool}
    (read : readOptions field value = .ok flag) : flag = true ↔ ¬ Disables value := by
  unfold readOptions at read
  split at read
  · cases read
    simp [Disables]
  · rename_i entries
    split at read
    · obtain ⟨found, flagged, made⟩ := bind_eq_ok.1 read
      cases made
      unfold Fields.optional at flagged
      cases given : entry? entries "enabled" with
      | none =>
        rw [given] at flagged
        cases flagged
        simp [Disables, given]
      | some value =>
        rw [given] at flagged
        obtain ⟨said, spelled, rfl⟩ := map_eq_ok.1 flagged
        cases value with
        | boolean other =>
          cases spelled
          simp [Disables, given]
        | _ => cases spelled
    · cases read
  · cases read

private theorem map_eq_of_forall₂ {α β γ : Type} {left : List α} {right : List β} {f : α → γ}
    {g : β → γ} (all : List.Forall₂ (fun a b => f a = g b) left right) :
    left.map f = right.map g := by
  induction all with
  | nil => rfl
  | cons here _ ih => rw [List.map_cons, List.map_cons, here, ih]

private theorem forall₂_of_mapM {α : Type} {read : String → Value → Except Fault α}
    {pairs : List (String × α)}
    (ran : (entries.mapM fun entry => do return (entry.1, ← read entry.1 entry.2)) = .ok pairs) :
    List.Forall₂ (fun pair entry => pair.1 = entry.1 ∧ ∃ key, read key entry.2 = .ok pair.2)
      pairs entries := by
  induction entries generalizing pairs with
  | nil =>
    cases ran
    exact .nil
  | cons entry rest ih =>
    obtain ⟨pair, others, first, later, rfl⟩ := mapM_cons_eq_ok.1 ran
    obtain ⟨value, here, made⟩ := bind_eq_ok.1 first
    cases made
    exact .cons ⟨rfl, entry.1, here⟩ (ih later)

/-- A dictionary read from a table in order has the entries of the table, one by one. -/
theorem readDictionary_copies {α : Type} {read : String → Value → Except Fault α}
    {dictionary : Dictionary String α} (ascending : Ascending entries)
    (reads : readDictionary read field (.table entries) = .ok dictionary) :
    dictionary.Copies id (fun value a => ∃ key, read key value = .ok a) entries := by
  obtain ⟨table, tabled, reads⟩ := bind_eq_ok.1 reads
  cases tabled
  obtain ⟨pairs, paired, made⟩ := bind_eq_ok.1 reads
  cases made
  have copied := forall₂_of_mapM paired
  have keys : pairs.map Prod.fst = entries.map Prod.fst :=
    map_eq_of_forall₂ (copied.imp fun _ _ both => both.1)
  unfold Dictionary.Copies
  rw [Dictionary.entries_ofList (by rw [keys]; exact Ascending.nodup ascending)]
  exact copied

private theorem keys_copies {α β : Type} {dictionary : Dictionary String α} {shows : β → α → Prop}
    {items : List (String × β)} (copies : dictionary.Copies id shows items) :
    dictionary.entries.map Prod.fst = items.map Prod.fst :=
  map_eq_of_forall₂ (List.Forall₂.imp (fun _ _ both => both.1) copies)

/-- From a table whose keys ascend, the enabled names come in that order. -/
theorem enables_table {flags : Dictionary String Bool} (ascending : Ascending options)
    (reads : readDictionary readOptions field (.table options) = .ok flags) :
    Enables (some (.table options)) (ExtensionsSection.table flags).enabled := by
  have copies := readDictionary_copies ascending reads
  have order : Ascending flags.entries := by
    refine List.pairwise_map.1 ?_
    rw [keys_copies copies]
    exact List.pairwise_map.2 ascending
  refine ⟨List.pairwise_map.2 (order.filter _), fun name => ?_⟩
  have flagged : name ∈ (ExtensionsSection.table flags).enabled ↔ (name, true) ∈ flags.entries := by
    simp [ExtensionsSection.enabled]
  rw [flagged, ← Dictionary.find?_eq_some_iff]
  constructor
  · intro found
    obtain ⟨value, inside, key, read⟩ := copies.item_of_find? found
    exact ⟨value, inside, (readOptions_eq_ok read).1 rfl⟩
  · rintro ⟨value, inside, allowed⟩
    obtain ⟨flag, found, key, read⟩ := copies.find?_of_item Function.injective_id inside
    rw [found, (readOptions_eq_ok read).2 allowed]

private theorem enables_readExtensions {part : Value} {extensions : ExtensionsSection}
    (ordered : part.Ordered) (read : readExtensions field part = .ok extensions) :
    Enables (some part) extensions.enabled := by
  cases part with
  | array items =>
    obtain ⟨names, spelled, made⟩ := bind_eq_ok.1 read
    cases made
    exact (asTexts_eq_ok.1 spelled).symm
  | table options =>
    obtain ⟨flags, reads, made⟩ := bind_eq_ok.1 read
    cases made
    exact enables_table ordered.ascending reads
  | _ => cases read

private theorem enables_ofText {text : String} (decoded : Sections.ofText text = .ok sections) :
    ∃ entries, Toml.parse text = .ok entries ∧
      Enables (extensionsPart entries) sections.extensions.enabled := by
  obtain ⟨entries, parsed, decoded⟩ := bind_eq_ok.1 decoded
  refine ⟨entries, parsed, ?_⟩
  have ordered := parse_ordered parsed
  obtain ⟨fields, known, decoded⟩ := bind_eq_ok.1 decoded
  obtain ⟨bundle, _, decoded⟩ := bind_eq_ok.1 decoded
  obtain ⟨extensions, read, decoded⟩ := bind_eq_ok.1 decoded
  obtain ⟨rows, _, decoded⟩ := bind_eq_ok.1 decoded
  obtain ⟨manifests, _, made⟩ := bind_eq_ok.1 decoded
  cases made
  obtain rfl := knownFields_eq_ok known
  unfold Fields.optional at read
  rw [extensionsPart]
  cases given : entry? entries "extensions" with
  | none =>
    rw [given] at read
    cases read
    rfl
  | some part =>
    rw [given] at read
    obtain ⟨said, spelled, rfl⟩ := map_eq_ok.1 read
    exact enables_readExtensions (ordered.given given) spelled

end Sections

namespace Configuration

variable {configuration : Configuration} {scope : Option ModuleId} {name : String} {id : ModuleId}

def pluginText (scope : Option ModuleId) (name : String) : String :=
  scope.elim name fun scope => scope.text ++ "." ++ name

theorem pluginText_injective (scope : Option ModuleId) : Function.Injective (pluginText scope) := by
  intro name other same
  cases scope with
  | none => exact same
  | some scope => exact (String.append_right_inj _).1 same

theorem pluginId?_eq_some : pluginId? scope name = some id ↔ id.text = pluginText scope name := by
  cases scope with
  | none => exact ModuleId.parse?_eq_some
  | some scope =>
    rw [pluginText, Option.elim_some, ← ModuleId.child_eq_ok, pluginId?]
    cases scope.child name with
    | error invalid => simp [Except.toOption]
    | ok child => simp [Except.toOption]

private theorem eq_of_pluginId? {other : String} (first : pluginId? scope name = some id)
    (second : pluginId? scope other = some id) : name = other :=
  pluginText_injective scope
    ((pluginId?_eq_some.1 first).symm.trans (pluginId?_eq_some.1 second))

private theorem isPlugin_of_pluginModule? (found : configuration.pluginModule? name = some id)
    (lookup : ModuleId → Logged (Except LookupFailure Declaration)) :
    (Plan.resolver configuration lookup).isPlugin id = true := by
  have text := pluginId?_eq_some.1 found
  unfold Resolver.isPlugin Plan.resolver
  cases scope : configuration.pluginNamespace with
  | none => rfl
  | some scope =>
    rw [scope] at text
    exact ModuleId.isWithin_child (ModuleId.child_eq_ok.2 text)

theorem mem_initialModules_iff : id ∈ configuration.initialModules ↔
    id ∈ configuration.alwaysIncluded ∨ ∃ name ∈ configuration.enabledPlugins,
      isPrivate name = false ∧ configuration.pluginModule? name = some id := by
  simp [initialModules, and_assoc]

/-- What has been accepted names a module for each public plugin that is enabled. -/
theorem exists_pluginModule? {base : FilePath} {sections : Sections}
    (accepted : ofSections base sections = .ok configuration)
    (enabled : name ∈ configuration.enabledPlugins) (shown : isPrivate name = false) :
    ∃ id, configuration.pluginModule? name = some id := by
  obtain ⟨bundle, entryPoint, checks⟩ := ofSections_eq_ok.1 accepted
  have names := readNamespace_eq_ok.1 checks.scope
  rw [checks.enabled] at enabled
  have valid := (requirePlugins_eq_ok names).1 checks.plugins name enabled shown
  exact Option.isSome_iff_exists.1 ((isSome_pluginId? names).2 valid)

/-- An accepted configuration starts from what is always included and from one plugin module for
each public name that is enabled, and a private name adds nothing. -/
theorem initialModules_exact {disk : Disk} {base : FilePath} {text : String}
    (accepted : (ofText disk base text).value = .ok configuration) :
    (∀ id, id ∈ configuration.initialModules ↔ id ∈ configuration.alwaysIncluded ∨
      ∃ name ∈ configuration.enabledPlugins, isPrivate name = false ∧
        configuration.pluginModule? name = some id) ∧
    (∀ name ∈ configuration.enabledPlugins, isPrivate name = false →
      ∃ id, configuration.pluginModule? name = some id ∧
        ∀ lookup, (Plan.resolver configuration lookup).isPlugin id = true) ∧
    (∀ name id, configuration.pluginModule? name = some id ↔
      id.text = pluginText configuration.pluginNamespace name) ∧
    (∀ name other id, configuration.pluginModule? name = some id →
      configuration.pluginModule? other = some id → name = other) ∧
    (∀ name id, isPrivate name = true → configuration.pluginModule? name = some id →
      id ∈ configuration.initialModules → id ∈ configuration.alwaysIncluded) ∧
    ∃ entries, Toml.parse text = .ok entries ∧
      Sections.Enables (Sections.extensionsPart entries) configuration.enabledPlugins := by
  obtain ⟨sections, decoded, checked⟩ := ofText_eq_ok.1 accepted
  refine ⟨fun _ => mem_initialModules_iff, fun name enabled shown => ?_,
    fun _ _ => pluginId?_eq_some, fun _ _ _ => eq_of_pluginId?,
    fun name id hidden found inside => ?_, ?_⟩
  · obtain ⟨id, found⟩ := exists_pluginModule? checked enabled shown
    exact ⟨id, found, isPlugin_of_pluginModule? found⟩
  · rcases mem_initialModules_iff.1 inside with always | ⟨other, _, shown, foundToo⟩
    · exact always
    · obtain rfl := eq_of_pluginId? found foundToo
      rw [hidden] at shown
      cases shown
  · obtain ⟨bundle, entryPoint, checks⟩ := ofSections_eq_ok.1 checked
    rw [checks.enabled]
    exact Sections.enables_ofText decoded

/-- Plugins with options: one is private, one disabled, and one has a name of two segments. -/
def pluginOptions : String :=
  "bundle = \x7bentry_point = \"m\", search_paths = [\"s\"], plugin_namespace = \"e\"\x7d\n" ++
  "[extensions]\nc = \x7b\x7d\n_b = \x7b\x7d\na.enabled = false\nb.enabled = true\n" ++
  "\"b.d\" = \x7bport = 1\x7d\n"

theorem initialModules_exact_options : ∃ configuration,
    (ofText ⟨∅, []⟩ ⟨"/"⟩ pluginOptions).value = .ok configuration ∧
      configuration.enabledPlugins = ["_b", "b", "b.d", "c"] ∧
      configuration.initialModules.toList.map ModuleId.text = ["e.b", "e.b.d", "e.c"] ∧
      ∃ id, configuration.pluginModule? "b.d" = some id ∧ id ∈ configuration.initialModules := by
  have read : (ofText ⟨∅, []⟩ ⟨"/"⟩ pluginOptions).value.toOption.map (fun configuration =>
      (configuration.enabledPlugins, configuration.initialModules.toList.map ModuleId.text)) =
      some (["_b", "b", "b.d", "c"], ["e.b", "e.b.d", "e.c"]) := by decide +kernel
  cases outcome : (ofText ⟨∅, []⟩ ⟨"/"⟩ pluginOptions).value with
  | error fault =>
    rw [outcome] at read
    cases read
  | ok configuration =>
    rw [outcome] at read
    obtain ⟨names, modules⟩ := Prod.mk.inj (Option.some.inj read)
    obtain ⟨members, named, _⟩ := initialModules_exact outcome
    have enabled : "b.d" ∈ configuration.enabledPlugins := by
      rw [names]
      decide
    obtain ⟨id, found, _⟩ := named "b.d" enabled rfl
    have initial := (members id).2 (.inr ⟨"b.d", enabled, rfl, found⟩)
    exact ⟨configuration, rfl, names, modules, id, found, initial⟩

end Configuration
end BundlePlan
