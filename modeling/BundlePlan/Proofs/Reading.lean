import BundlePlan.Proofs.Checks
import BundlePlan.Proofs.Insertions

/-! A configuration is accepted exactly if its file meets a list of conditions, and then it holds
what the file lists, no less and no more. -/
namespace BundlePlan

private theorem forall₂_left {α β : Type} {related : α → β → Prop} {left : List α} {right : List β}
    (all : List.Forall₂ related left right) {a : α} (member : a ∈ left) :
    ∃ b ∈ right, related a b := by
  induction all with
  | nil => cases member
  | @cons first second _ _ here _ ih =>
    rcases List.mem_cons.1 member with rfl | later
    · exact ⟨second, List.mem_cons_self, here⟩
    · obtain ⟨b, inside, found⟩ := ih later
      exact ⟨b, List.mem_cons_of_mem second inside, found⟩

private theorem forall₂_right {α β : Type} {related : α → β → Prop} {left : List α} {right : List β}
    (all : List.Forall₂ related left right) {b : β} (member : b ∈ right) :
    ∃ a ∈ left, related a b := by
  have turned : List.Forall₂ (flip related) right left := all.flip
  exact forall₂_left turned member

namespace Dictionary

variable {κ ν α β : Type} {d : Dictionary κ α} {name : κ → ν} {shows : β → α → Prop}
  {items : List (ν × β)}

/-- The entries show these items, one by one and under keys of the same names. -/
def Copies (d : Dictionary κ α) (name : κ → ν) (shows : β → α → Prop) (items : List (ν × β)) :
    Prop :=
  List.Forall₂ (fun entry item => name entry.1 = item.1 ∧ shows item.2 entry.2) d.entries items

namespace Copies

private theorem length_eq (copies : d.Copies name shows items) : d.entries.length = items.length :=
  List.Forall₂.length_eq copies

private theorem empty (name : κ → ν) (shows : β → α → Prop) :
    (Dictionary.empty : Dictionary κ α).Copies name shows [] := .nil

variable [DecidableEq κ]

theorem item_of_find? {key : κ} {value : α} (copies : d.Copies name shows items)
    (found : d.find? key = some value) : ∃ item, (name key, item) ∈ items ∧ shows item value := by
  have entry := (d.find?_eq_some_iff).1 found
  obtain ⟨item, inside, same, shown⟩ := forall₂_left copies entry
  have whole : (name key, item.2) = item := Prod.ext same rfl
  exact ⟨item.2, by rw [whole]; exact inside, shown⟩

theorem find?_of_item (injective : Function.Injective name) {key : κ} {item : β}
    (copies : d.Copies name shows items) (member : (name key, item) ∈ items) :
    ∃ value, d.find? key = some value ∧ shows item value := by
  obtain ⟨⟨other, value⟩, inside, same, shown⟩ := forall₂_right copies member
  obtain rfl : other = key := injective same
  exact ⟨value, (d.find?_eq_some_iff).2 inside, shown⟩

theorem find?_eq_none {key : κ} (copies : d.Copies name shows items)
    (absent : ∀ item, (name key, item) ∉ items) : d.find? key = none := by
  cases found : d.find? key with
  | none => rfl
  | some value =>
    obtain ⟨item, inside, _⟩ := copies.item_of_find? found
    exact absurd inside (absent item)

private theorem rel_find? {source : Dictionary ν β} [DecidableEq ν]
    (injective : Function.Injective name) (copies : d.Copies name shows source.entries) (key : κ) :
    Option.Rel shows (source.find? (name key)) (d.find? key) := by
  cases given : source.find? (name key) with
  | none =>
    have absent : ∀ item, (name key, item) ∉ source.entries := by
      intro item inside
      rw [(source.find?_eq_some_iff).2 inside] at given
      cases given
    rw [copies.find?_eq_none absent]
    exact .none
  | some item =>
    obtain ⟨value, found, shown⟩ :=
      copies.find?_of_item injective ((source.find?_eq_some_iff).1 given)
    rw [found]
    exact .some shown

private theorem insert {key : κ} {value : α} {item : ν × β} (copies : d.Copies name shows items)
    (fresh : ∀ other ∈ items, other.1 ≠ item.1) (same : name key = item.1)
    (shown : shows item.2 value) : (d.insert key value).Copies name shows (items ++ [item]) := by
  have none : d.find? key = none := by
    apply copies.find?_eq_none
    intro other inside
    exact fresh _ inside same
  unfold Copies
  rw [d.entries_insert value ((d.find?_eq_none_iff).1 none)]
  exact List.rel_append copies (.cons ⟨same, shown⟩ .nil)

end Copies
end Dictionary

/-- The rows of one plugin, each under the names of its plugin and its platform. -/
def Sections.rowsOf (plugin : String × Dictionary String (List String)) :
    List ((String × String) × List String) :=
  plugin.2.entries.map fun row => ((plugin.1, row.1), row.2)

def Sections.rows (sections : Sections) : List ((String × String) × List String) :=
  sections.platformDependencies.entries.flatMap rowsOf

/-- The modules listed in the row of this plugin for this platform, if there is one. -/
def Sections.row (sections : Sections) (plugin platform : String) : List String :=
  ((sections.platformDependencies.find? plugin).bind (·.find? platform)).getD []

theorem Sections.forall_rows {sections : Sections}
    {holds : (String × String) × List String → Prop} :
    (∀ row ∈ sections.rows, holds row) ↔ ∀ plugin ∈ sections.platformDependencies.entries,
      ∀ row ∈ plugin.2.entries, holds ((plugin.1, row.1), row.2) := by
  simp only [rows, rowsOf, List.forall_mem_flatMap, List.forall_mem_map]

theorem Sections.mem_row_iff {sections : Sections} {plugin platform text : String} :
    text ∈ sections.row plugin platform ↔
      ∃ texts, ((plugin, platform), texts) ∈ sections.rows ∧ text ∈ texts := by
  simp only [row, rows, rowsOf, List.mem_flatMap, List.mem_map, Prod.mk.injEq]
  constructor
  · intro member
    cases found : sections.platformDependencies.find? plugin with
    | none => simp [found] at member
    | some inner =>
      cases listed : inner.find? platform with
      | none => simp [found, listed] at member
      | some texts =>
        refine ⟨texts, ⟨_, (Dictionary.find?_eq_some_iff _).1 found, _,
          (Dictionary.find?_eq_some_iff _).1 listed, ⟨rfl, rfl⟩, rfl⟩, ?_⟩
        simpa [found, listed] using member
  · rintro ⟨texts, ⟨⟨_, inner⟩, outer, ⟨_, _⟩, inside, ⟨rfl, rfl⟩, rfl⟩, member⟩
    have found := (Dictionary.find?_eq_some_iff _).2 outer
    have listed := (Dictionary.find?_eq_some_iff _).2 inside
    simpa [found, listed] using member

namespace Configuration

def rowName (key : ModuleId × Platform) : String × String := (key.1.text, key.2.name)

theorem rowName_injective : Function.Injective rowName := by
  rintro ⟨id, platform⟩ ⟨other, second⟩ same
  have texts : id.text = other.text := congrArg Prod.fst same
  have names : platform.name = second.name := congrArg Prod.snd same
  have platforms : some platform = some second := by
    rw [← Platform.ofName?_name platform, ← Platform.ofName?_name second, names]
  rw [ModuleId.text_inj.1 texts, Option.some.inj platforms]

/-- The table has these rows, each under the names of its plugin and its platform, and no others. -/
structure Tabulates (table : PlatformTable) (rows : List ((String × String) × List String)) :
    Prop where
  held : ∀ plugin platform set, table.row? plugin platform = some set →
    ∃ texts, (rowName (plugin, platform), texts) ∈ rows ∧ Lists texts set
  shown : ∀ plugin platform texts, (rowName (plugin, platform), texts) ∈ rows →
    ∃ set, table.row? plugin platform = some set ∧ Lists texts set
  length_eq : table.size = rows.length

private theorem Tabulates.empty : Tabulates ∅ [] := by
  refine ⟨fun plugin platform set found => ?_, nofun, rfl⟩
  have none : (∅ : PlatformTable).row? plugin platform = none := rfl
  rw [none] at found
  cases found

theorem readRow_eq_ok {field : String} {plugin : ModuleId} {table next : PlatformTable}
    {row : String × List String} :
    readRow field plugin table row = .ok next ↔ ∃ platform set, platform.name = row.1 ∧
      Lists row.2 set ∧ table.insert plugin platform set.toList = next := by
  unfold readRow
  cases known : Platform.ofName? row.1 with
  | none =>
    have unknown : ∀ platform : Platform, platform.name ≠ row.1 := by
      intro platform same
      rw [Platform.ofName?_eq_some.2 same] at known
      cases known
    simp [unknown]
  | some platform =>
    have same := Platform.ofName?_eq_some.1 known
    simp only [bind_eq_ok, requireIds_eq_ok]
    constructor
    · rintro ⟨set, lists, made⟩
      exact ⟨platform, set, same, lists, Except.ok.inj made⟩
    · rintro ⟨second, set, sameToo, lists, made⟩
      rw [← Platform.ofName?_eq_some, known] at sameToo
      cases sameToo
      exact ⟨set, lists, congrArg _ made⟩

private theorem Tabulates.insert {table : PlatformTable}
    {rows : List ((String × String) × List String)} (tabulates : Tabulates table rows)
    {plugin : ModuleId} {platform : Platform} {row : (String × String) × List String}
    {set : ModuleSet} (fresh : ∀ other ∈ rows, other.1 ≠ row.1)
    (same : rowName (plugin, platform) = row.1) (lists : Lists row.2 set) :
    Tabulates (table.insert plugin platform set.toList) (rows ++ [row]) := by
  have none : table.row? plugin platform = none := by
    cases found : table.row? plugin platform with
    | none => rfl
    | some set =>
      obtain ⟨texts, inside, _⟩ := tabulates.held plugin platform set found
      exact absurd same (fresh _ inside)
  -- Rows for one plugin and platform are merged, but the keys of a file are distinct.
  have whole : (table.extra plugin platform).union (.ofList set.toList) = set := by
    apply ModuleSet.ext_mem
    intro id
    rw [PlatformTable.extra, none, ModuleSet.mem_union, ModuleSet.mem_ofList, ModuleSet.mem_toList]
    exact or_iff_right (ModuleSet.not_mem_empty id)
  have changed := table.row?_insert plugin platform set.toList
  rw [whole] at changed
  refine ⟨fun other second found listed => ?_, fun other second texts inside => ?_, ?_⟩
  · rw [changed] at listed
    split at listed
    · rename_i here
      obtain rfl := Option.some.inj listed
      rw [← here, same]
      exact ⟨row.2, List.mem_append_right rows List.mem_cons_self, lists⟩
    · obtain ⟨texts, inside, shown⟩ := tabulates.held other second found listed
      exact ⟨texts, List.mem_append_left _ inside, shown⟩
  · rw [changed]
    rcases List.mem_append.1 inside with old | new
    · have apart : (plugin, platform) ≠ (other, second) := fun here =>
        fresh _ old (here ▸ same)
      rw [if_neg apart]
      exact tabulates.shown other second texts old
    · obtain rfl := List.mem_singleton.1 new
      rw [if_pos (rowName_injective same)]
      exact ⟨set, rfl, lists⟩
  · rw [PlatformTable.size_insert_of_new none, tabulates.length_eq, List.length_append]
    rfl

private theorem key_fresh {ν β : Type} {list done rest : List (ν × β)} {item : ν × β}
    (distinct : (list.map Prod.fst).Nodup) (split : list = done ++ item :: rest) :
    ∀ other ∈ done, other.1 ≠ item.1 := by
  intro other member same
  rw [split, List.map_append, List.nodup_append] at distinct
  exact distinct.2.2 _ (List.mem_map_of_mem member) _ List.mem_cons_self same

private theorem readRows_tabulates {scope : Option ModuleId} {table next : PlatformTable}
    {before : List ((String × String) × List String)}
    {plugin : String × Dictionary String (List String)} (tabulates : Tabulates table before)
    (fresh : ∀ other ∈ before, other.1.1 ≠ plugin.1)
    (ran : readRows scope table plugin = .ok next) :
    Tabulates next (before ++ Sections.rowsOf plugin) := by
  simp only [readRows, bind_eq_ok, requireFollowed_eq_ok] at ran
  obtain ⟨id, ⟨same, _⟩, folded⟩ := ran
  refine foldlM_holds (fun done table => Tabulates table
    (before ++ done.map fun row => ((plugin.1, row.1), row.2))) ?_ ?_ folded
  · intro done row rest table next split here read
    obtain ⟨platform, set, named, lists, rfl⟩ := readRow_eq_ok.1 read
    have apart : ∀ other ∈ before ++ done.map (fun row => ((plugin.1, row.1), row.2)),
        other.1 ≠ (plugin.1, row.1) := by
      intro other member equal
      rcases List.mem_append.1 member with old | new
      · exact fresh other old (congrArg Prod.fst equal)
      · obtain ⟨earlier, inside, rfl⟩ := List.mem_map.1 new
        exact key_fresh plugin.2.distinct split earlier inside (congrArg Prod.snd equal)
    have name : rowName (id, platform) = (plugin.1, row.1) := by rw [rowName, same, named]
    rw [List.map_append, ← List.append_assoc]
    exact here.insert apart name lists
  · simpa using tabulates

private theorem rows_tabulates {scope : Option ModuleId} {sections : Sections}
    {table : PlatformTable}
    (ran : sections.platformDependencies.entries.foldlM (readRows scope) ∅ = .ok table) :
    Tabulates table sections.rows := by
  refine foldlM_holds (fun done table => Tabulates table (done.flatMap Sections.rowsOf)) ?_
    .empty ran
  intro done plugin rest table next split here read
  rw [List.flatMap_append, List.flatMap_singleton]
  refine readRows_tabulates here ?_ read
  intro other member same
  obtain ⟨earlier, inside, listed⟩ := List.mem_flatMap.1 member
  obtain ⟨row, _, rfl⟩ := List.mem_map.1 listed
  exact key_fresh sections.platformDependencies.distinct split earlier inside same

theorem Tabulates.mem_extra_iff {table : PlatformTable} {sections : Sections}
    (tabulates : Tabulates table sections.rows) {plugin target : ModuleId} {platform : Platform} :
    target ∈ table.extra plugin platform ↔
      target.text ∈ sections.row plugin.text platform.name := by
  rw [Sections.mem_row_iff, PlatformTable.extra]
  constructor
  · intro member
    cases found : table.row? plugin platform with
    | none =>
      rw [found] at member
      exact absurd member (ModuleSet.not_mem_empty target)
    | some set =>
      rw [found] at member
      obtain ⟨texts, inside, _, members⟩ := tabulates.held plugin platform set found
      exact ⟨texts, inside, (members target).1 member⟩
  · rintro ⟨texts, inside, listed⟩
    obtain ⟨set, found, _, members⟩ := tabulates.shown plugin platform texts inside
    rw [found]
    exact (members target).2 listed

theorem readManifest_eq_ok {scope : Option ModuleId}
    {manifests next : Dictionary ModuleId Declaration} {entry : String × Manifest} :
    readManifest scope manifests entry = .ok next ↔
      ∃ id, requireFollowed ("manifests." ++ entry.1) entry.1 scope = .ok id ∧
        (entry.2.id = none ∨ entry.2.id = some entry.1) ∧
        ∃ declaration, entry.2.Declares declaration ∧ manifests.insert id declaration = next := by
  simp only [readManifest, bind_eq_ok]
  refine exists_congr fun id => and_congr_right fun followed => ?_
  have same := (requireFollowed_eq_ok.1 followed).1
  rw [← same, ← Manifest.foreignId?_eq_none]
  cases entry.2.foreignId? id with
  | some declared => simp [throw, throwThe, MonadExceptOf.throw]
  | none =>
    have declares (declaration : Declaration) : entry.2.Declares declaration ↔
        entry.2.declaration id = .ok declaration := Manifest.declaration_eq_ok.symm
    simp only [declares, true_and]
    cases entry.2.declaration id with
    | error failure => simp [throw, throwThe, MonadExceptOf.throw]
    | ok declaration => simp

private theorem manifests_copies {scope : Option ModuleId} {sections : Sections}
    {manifests : Dictionary ModuleId Declaration}
    (ran : sections.manifests.entries.foldlM (readManifest scope) ∅ = .ok manifests) :
    manifests.Copies ModuleId.text Manifest.Declares sections.manifests.entries := by
  refine foldlM_holds (fun done manifests => Dictionary.Copies manifests ModuleId.text
    Manifest.Declares done) ?_ (.empty ModuleId.text Manifest.Declares) ran
  intro done entry rest manifests next split here read
  obtain ⟨id, followed, _, declaration, declares, rfl⟩ := readManifest_eq_ok.1 read
  have fresh := key_fresh sections.manifests.distinct split
  exact here.insert fresh (requireFollowed_eq_ok.1 followed).1 declares

private theorem exists_readRow {field : String} {plugin : ModuleId} (table : PlatformTable)
    (row : String × List String) : (∃ next, readRow field plugin table row = .ok next) ↔
      row.1 ∈ ["linux", "macos", "windows", "other"] ∧ ∀ text ∈ row.2, IsModuleId text := by
  rw [← exists_platform, ← exists_lists]
  constructor
  · rintro ⟨next, read⟩
    obtain ⟨platform, set, named, lists, _⟩ := readRow_eq_ok.1 read
    exact ⟨⟨platform, named⟩, set, lists⟩
  · rintro ⟨⟨platform, named⟩, set, lists⟩
    exact ⟨_, readRow_eq_ok.2 ⟨platform, set, named, lists, rfl⟩⟩

private theorem exists_readRows {text : String} {scope : Option ModuleId} (names : Names text scope)
    (table : PlatformTable) (plugin : String × Dictionary String (List String)) :
    (∃ next, readRows scope table plugin = .ok next) ↔ InNamespace text plugin.1 ∧
      ∀ row ∈ plugin.2.entries, row.1 ∈ ["linux", "macos", "windows", "other"] ∧
        ∀ text ∈ row.2, IsModuleId text := by
  simp only [readRows, bind_eq_ok]
  rw [← exists_requireFollowed names]
  constructor
  · rintro ⟨next, id, followed, folded⟩
    exact ⟨⟨id, followed⟩, (exists_foldlM exists_readRow _ _).1 ⟨next, folded⟩⟩
  · rintro ⟨⟨id, followed⟩, each⟩
    obtain ⟨next, folded⟩ := (exists_foldlM exists_readRow _ _).2 each
    exact ⟨next, id, followed, folded⟩

private theorem exists_readManifest {text : String} {scope : Option ModuleId}
    (names : Names text scope) (manifests : Dictionary ModuleId Declaration)
    (entry : String × Manifest) :
    (∃ next, readManifest scope manifests entry = .ok next) ↔ InNamespace text entry.1 ∧
      (entry.2.id = none ∨ entry.2.id = some entry.1) ∧
      ∀ texts, entry.2.dependencies = some texts → ∀ text ∈ texts, IsModuleId text := by
  rw [← exists_requireFollowed names, ← Manifest.exists_declares]
  simp only [readManifest_eq_ok]
  constructor
  · rintro ⟨next, id, followed, own, declaration, declares, _⟩
    exact ⟨⟨id, followed⟩, own, declaration, declares⟩
  · rintro ⟨⟨id, followed⟩, own, declaration, declares⟩
    exact ⟨_, id, followed, own, declaration, declares, rfl⟩

theorem find?_stated (configuration : Configuration) (id : ModuleId) :
    configuration.catalog.stated.find? id = (configuration.manifests.find? id).map .ok := by
  have distinct : ((configuration.manifests.entries.map fun entry =>
      (entry.1, (Except.ok entry.2 : Except Malformation Declaration))).map Prod.fst).Nodup := by
    simpa [List.map_map, Function.comp_def] using configuration.manifests.distinct
  simp only [catalog, Dictionary.find?, Dictionary.entries_ofList distinct, List.find?_map,
    Option.map_map, Function.comp_def]

theorem value_ofText {disk : Disk} {base : FilePath} {text : String} {sections : Sections}
    (decoded : Sections.ofText text = .ok sections) :
    (ofText disk base text).value = ofSections base sections := by
  cases checked : ofSections base sections with
  | error fault =>
    simp only [ofText, decoded, checked]
    rfl
  | ok configuration =>
    simp only [ofText, decoded, checked]
    split <;> rfl

/-- The conditions on a file, each of them by itself. Nothing is asked of private plugins and of
those that are not enabled. -/
structure Acceptable (sections : Sections) (bundle : BundleSection) : Prop where
  present : sections.bundle = some bundle
  entryPoint : ∃ path, bundle.entryPoint = some path ∧ path.text ≠ ""
  searchPaths : bundle.searchPaths ≠ []
  pluginNamespace : bundle.pluginNamespace = "" ∨ IsModuleId bundle.pluginNamespace
  alwaysIncluded : ∀ text ∈ bundle.alwaysIncluded, IsModuleId text
  excludes : ∀ text ∈ bundle.excludes, IsModuleId text
  plugins : ∀ name ∈ sections.extensions.enabled, isPrivate name = false →
    IsModuleId (qualified bundle.pluginNamespace name)
  rowKeys : ∀ plugin ∈ sections.platformDependencies.keys,
    InNamespace bundle.pluginNamespace plugin
  manifestKeys : ∀ id ∈ sections.manifests.keys, InNamespace bundle.pluginNamespace id
  platforms : ∀ row ∈ sections.rows, row.1.2 ∈ ["linux", "macos", "windows", "other"]
  rows : ∀ row ∈ sections.rows, ∀ text ∈ row.2, IsModuleId text
  dependencies : ∀ entry ∈ sections.manifests.entries, ∀ texts,
    entry.2.dependencies = some texts → ∀ text ∈ texts, IsModuleId text
  ownIds : ∀ entry ∈ sections.manifests.entries, entry.2.id = none ∨ entry.2.id = some entry.1

/-- The configuration holds what the file lists. -/
structure Keeps (base : FilePath) (sections : Sections) (bundle : BundleSection)
    (configuration : Configuration) : Prop where
  entryPoint : bundle.entryPoint.map base.absoluteFrom = some configuration.entryPoint
  searchPaths : bundle.searchPaths.map base.absoluteFrom = configuration.searchPaths
  manifestDirectory :
    bundle.manifestDirectory.map base.absoluteFrom = configuration.manifestDirectory
  pluginNamespace : Names bundle.pluginNamespace configuration.pluginNamespace
  alwaysIncluded : ∀ id, id ∈ configuration.alwaysIncluded ↔ id.text ∈ bundle.alwaysIncluded
  excludes : ∀ id, id ∈ configuration.excludes ↔ id.text ∈ bundle.excludes
  enabled : configuration.enabledPlugins = sections.extensions.enabled
  extra : ∀ plugin platform target, target ∈ configuration.platformTable.extra plugin platform ↔
    target.text ∈ sections.row plugin.text platform.name
  tableSize : configuration.platformTable.size = sections.rows.length
  manifests : ∀ id, Option.Rel Manifest.Declares (sections.manifests.find? id.text)
    (configuration.manifests.find? id)
  manifestCount : configuration.manifests.size = sections.manifests.size
  stated : ∀ id, configuration.catalog.stated.find? id = (configuration.manifests.find? id).map .ok

theorem ofSections_keeps {base : FilePath} {sections : Sections} {configuration : Configuration}
    (accepted : ofSections base sections = .ok configuration) :
    ∃ bundle, sections.bundle = some bundle ∧ Keeps base sections bundle configuration := by
  obtain ⟨bundle, entryPoint, checks⟩ := ofSections_eq_ok.1 accepted
  have tabulates := rows_tabulates checks.rows
  have copies := manifests_copies checks.manifests
  have injective : Function.Injective ModuleId.text := fun _ _ => ModuleId.text_inj.1
  exact ⟨bundle, checks.present, {
    entryPoint := by rw [checks.entered, checks.entryPoint, Option.map_some]
    searchPaths := checks.searchPaths.symm
    manifestDirectory := checks.directory.symm
    pluginNamespace := readNamespace_eq_ok.1 checks.scope
    alwaysIncluded := (requireIds_eq_ok.1 checks.alwaysIncluded).2
    excludes := (requireIds_eq_ok.1 checks.excludes).2
    enabled := checks.enabled
    extra := fun _ _ _ => tabulates.mem_extra_iff
    tableSize := tabulates.length_eq
    manifests := copies.rel_find? injective
    manifestCount := copies.length_eq
    stated := configuration.find?_stated }⟩

theorem acceptable_of_ok {base : FilePath} {sections : Sections} {configuration : Configuration}
    (accepted : ofSections base sections = .ok configuration) :
    ∃ bundle, Acceptable sections bundle := by
  obtain ⟨bundle, entryPoint, checks⟩ := ofSections_eq_ok.1 accepted
  have names := readNamespace_eq_ok.1 checks.scope
  have plugins := (exists_foldlM (exists_readRows names) _ _).1 ⟨_, checks.rows⟩
  have manifests := (exists_foldlM (exists_readManifest names) _ _).1 ⟨_, checks.manifests⟩
  exact ⟨bundle, {
    present := checks.present
    entryPoint := ⟨entryPoint, checks.entered, checks.named⟩
    searchPaths := checks.searched
    pluginNamespace := exists_names.1 ⟨_, names⟩
    alwaysIncluded := (requireIds_eq_ok.1 checks.alwaysIncluded).1
    excludes := (requireIds_eq_ok.1 checks.excludes).1
    plugins := (requirePlugins_eq_ok names).1 checks.plugins
    rowKeys := List.forall_mem_map.2 fun plugin member => (plugins plugin member).1
    manifestKeys := List.forall_mem_map.2 fun entry member => (manifests entry member).1
    platforms := Sections.forall_rows.2 fun plugin member row inside =>
      ((plugins plugin member).2 row inside).1
    rows := Sections.forall_rows.2 fun plugin member row inside =>
      ((plugins plugin member).2 row inside).2
    dependencies := fun entry member => (manifests entry member).2.2
    ownIds := fun entry member => (manifests entry member).2.1 }⟩

theorem Acceptable.exists_ok {sections : Sections} {bundle : BundleSection}
    (acceptable : Acceptable sections bundle) (base : FilePath) :
    ∃ configuration, ofSections base sections = .ok configuration := by
  obtain ⟨scope, names⟩ := exists_names.2 acceptable.pluginNamespace
  obtain ⟨entryPoint, entered, named⟩ := acceptable.entryPoint
  obtain ⟨always, listed⟩ := exists_lists.2 acceptable.alwaysIncluded
  obtain ⟨excluded, listedToo⟩ := exists_lists.2 acceptable.excludes
  have keys := List.forall_mem_map.1 acceptable.rowKeys
  have keysToo := List.forall_mem_map.1 acceptable.manifestKeys
  have platforms := Sections.forall_rows.1 acceptable.platforms
  have rows := Sections.forall_rows.1 acceptable.rows
  obtain ⟨table, tabulated⟩ := (exists_foldlM (exists_readRows names)
    sections.platformDependencies.entries ∅).2 fun plugin member => ⟨keys plugin member,
      fun row inside => ⟨platforms plugin member row inside, rows plugin member row inside⟩⟩
  obtain ⟨manifests, copied⟩ := (exists_foldlM (exists_readManifest names)
    sections.manifests.entries ∅).2 fun entry member => ⟨keysToo entry member,
      acceptable.ownIds entry member, acceptable.dependencies entry member⟩
  refine ⟨{
    entryPoint := base.absoluteFrom entryPoint
    searchPaths := bundle.searchPaths.map base.absoluteFrom
    pluginNamespace := scope
    alwaysIncluded := always
    excludes := excluded
    enabledPlugins := sections.extensions.enabled
    platformTable := table
    manifests := manifests
    manifestDirectory := bundle.manifestDirectory.map base.absoluteFrom }, ?_⟩
  exact ofSections_eq_ok.2 ⟨bundle, entryPoint, {
    present := acceptable.present
    entered := entered
    named := named
    searched := acceptable.searchPaths
    scope := readNamespace_eq_ok.2 names
    alwaysIncluded := requireIds_eq_ok.2 listed
    excludes := requireIds_eq_ok.2 listedToo
    plugins := (requirePlugins_eq_ok names).2 acceptable.plugins
    rows := tabulated
    manifests := copied
    enabled := rfl
    entryPoint := rfl
    searchPaths := rfl
    directory := rfl }⟩

/-- A file is accepted exactly if it meets the conditions. Then the configuration holds all that is
listed and nothing else. -/
theorem accepted_iff_acceptable (base : FilePath) (sections : Sections) :
    ((∃ configuration, ofSections base sections = .ok configuration) ↔
      ∃ bundle, Acceptable sections bundle) ∧
    (∀ configuration, ofSections base sections = .ok configuration →
      ∃ bundle, sections.bundle = some bundle ∧ Keeps base sections bundle configuration) ∧
    ∀ disk text, Sections.ofText text = .ok sections →
      (ofText disk base text).value = ofSections base sections := by
  refine ⟨⟨?_, ?_⟩, fun configuration accepted => ofSections_keeps accepted, ?_⟩
  · rintro ⟨configuration, accepted⟩
    exact acceptable_of_ok accepted
  · rintro ⟨bundle, acceptable⟩
    exact acceptable.exists_ok base
  · intro disk text decoded
    exact value_ofText decoded

/-- One plugin has rows, another one a manifest, and a private one has no module. -/
def receiver : String :=
  "bundle = \x7bentry_point = \"m\", search_paths = [\"s\"], plugin_namespace = \"e\"\x7d\n" ++
  "extensions = [\"_!\"]\nplatform_dependencies.\"e.a\" = \x7blinux = [\"b\"], other = []\x7d\n" ++
  "manifests.e.id = \"e\"\n"

theorem accepted_iff_acceptable_receiver :
    ∃ sections configuration, Sections.ofText receiver = .ok sections ∧
      ofSections ⟨"/"⟩ sections = .ok configuration ∧
      (∃ bundle, Acceptable sections bundle) ∧ sections.rows.length = 2 ∧
      (ofText ⟨∅, []⟩ ⟨"/"⟩ receiver).value = .ok configuration := by
  have read : (ofText ⟨∅, []⟩ ⟨"/"⟩ receiver).value.toOption.map
      (fun configuration => configuration.platformTable.size) = some 2 := by decide +kernel
  cases outcome : (ofText ⟨∅, []⟩ ⟨"/"⟩ receiver).value with
  | error fault =>
    rw [outcome] at read
    cases read
  | ok configuration =>
    rw [outcome] at read
    obtain ⟨sections, decoded, accepted⟩ := ofText_eq_ok.1 outcome
    obtain ⟨acceptable, kept, texts⟩ := accepted_iff_acceptable ⟨"/"⟩ sections
    obtain ⟨bundle, _, keeps⟩ := kept configuration accepted
    have two : configuration.platformTable.size = 2 := Option.some.inj read
    refine ⟨sections, configuration, decoded, accepted, acceptable.1 ⟨_, accepted⟩, ?_, ?_⟩
    · rw [← keeps.tableSize, two]
    · rw [← outcome, texts _ _ decoded, accepted]

end Configuration
end BundlePlan
