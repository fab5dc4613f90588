import BundlePlan.Proofs.Lookups
import BundlePlan.Proofs.TomlText

/-! Manifests inside a configuration and manifests in files of their own. Both are held to the same
rules, with the same outcome for every manifest; only one of the two places refuses it at loading
and the other one at each lookup. Where there is an inline manifest, no file is asked. -/
namespace BundlePlan

namespace Manifest

def contents (manifest : Manifest) : List (String × Content) :=
  (manifest.dependencies.map fun texts => ("dependencies", .texts texts)).toList ++
    (manifest.description.map fun text => ("description", .text text)).toList ++
    (manifest.id.map fun text => ("id", .text text)).toList

private theorem keys_contents (manifest : Manifest) :
    (∀ entry ∈ manifest.contents, Toml.Bare entry.1) ∧ (manifest.contents.map Prod.fst).Nodup := by
  obtain ⟨id, dependencies, description⟩ := manifest
  unfold contents
  cases id <;> cases dependencies <;> cases description <;>
    exact ⟨by simp <;> decide, by simp⟩

def entries (manifest : Manifest) : List (String × Toml.Value) :=
  manifest.contents.map fun entry => (entry.1, Toml.valueOf entry.2)

private theorem values_filled (manifest : Manifest) :
    Toml.Draft.values (Toml.filled [] manifest.entries) = manifest.entries := by
  obtain ⟨id, dependencies, description⟩ := manifest
  unfold entries contents
  cases id <;> cases dependencies <;> cases description <;>
    simp only [Option.map_none, Option.map_some, Option.toList_none, Option.toList_some,
      List.append_nil, List.cons_append, List.nil_append, List.map_cons, List.map_nil, Toml.filled,
      List.foldl_cons, List.foldl_nil, Toml.Draft.put, String.reduceLT, String.reduceEq, reduceIte,
      Toml.Draft.values, Toml.Node.value]

private theorem asTexts_map (field : String) (texts : List String) :
    Toml.Value.asTexts field (.array (texts.map .string)) = .ok texts := by
  refine (Configuration.mapM_eq_ok fun value text => ?_).2 rfl
  cases value <;> simp [Toml.Value.asText, eq_comm]

private theorem ofValue_entries (manifest : Manifest) (field : String) :
    Manifest.ofValue field (.table manifest.entries) = .ok manifest := by
  obtain ⟨id, dependencies, description⟩ := manifest
  unfold entries contents ofValue
  cases id <;> cases dependencies <;> cases description <;>
    simp [Toml.Value.asRecord, Toml.knownFields, fieldNames, ofFields,
      Toml.Fields.optional, Toml.entry?, Toml.valueOf, asTexts_map, Except.map,
      Toml.Value.asText]

/-- A table is the same manifest in a configuration and as a document of its own. -/
theorem ofText_eq_ofValue {text : String} {entries : List (String × Toml.Value)}
    (read : Toml.parse text = .ok entries) (field : String) :
    Manifest.ofText text = Manifest.ofValue field (.table entries) := by
  unfold Manifest.ofText
  rw [read]
  rfl

private theorem exists_text (manifest : Manifest) :
    ∃ text, Manifest.ofText text = .ok manifest := by
  refine ⟨String.ofList (Toml.document manifest.contents), ?_⟩
  have read := Toml.parse_document manifest.keys_contents.1 manifest.keys_contents.2
  rw [ofText_eq_ofValue read ""]
  change Manifest.ofValue "" (.table (Toml.Draft.values (Toml.filled [] manifest.entries))) = _
  rw [values_filled, ofValue_entries]

end Manifest

namespace ConfigurationFault

/-- A fault that an inline manifest has in itself, not its key. -/
def OfManifest : ConfigurationFault → Prop
  | foreignManifestId _ _ => True
  | manifest _ => True
  | _ => False

end ConfigurationFault

namespace Configuration

/-- A check that finds no fault in an inline manifest. -/
def Spares {α : Type} (check : Except ConfigurationFault α) : Prop :=
  ∀ fault, check = .error fault → ¬ fault.OfManifest

section Spares

variable {α β σ : Type}

private theorem spares_ok (value : α) : Spares (.ok value) := nofun

private theorem spares_error {fault : ConfigurationFault} (other : ¬ fault.OfManifest) :
    Spares (.error fault : Except ConfigurationFault α) := by
  rintro _ ⟨⟩
  exact other

private theorem Spares.bind {first : Except ConfigurationFault α}
    {next : α → Except ConfigurationFault β} (spares : Spares first)
    (sparesToo : ∀ value, Spares (next value)) : Spares (first >>= next) := by
  intro fault failed
  rcases bind_eq_error.1 failed with early | ⟨value, _, late⟩
  · exact spares fault early
  · exact sparesToo value fault late

private theorem spares_mapM {read : α → Except ConfigurationFault β} (each : ∀ a, Spares (read a))
    (items : List α) : Spares (items.mapM read) := by
  induction items with
  | nil => exact spares_ok []
  | cons a rest ih =>
    rw [List.mapM_cons]
    exact (each a).bind fun b => ih.bind fun others => spares_ok (b :: others)

private theorem spares_foldlM {step : σ → α → Except ConfigurationFault σ}
    (each : ∀ s a, Spares (step s a)) (items : List α) (start : σ) :
    Spares (items.foldlM step start) := by
  intro fault failed
  obtain ⟨_, item, _, reached, _, _, stopped⟩ := foldlM_eq_error.1 failed
  exact each reached item fault stopped

private theorem spares_requireGiven (field : String) (given : Option α) :
    Spares (requireGiven field given) := by
  cases given with
  | none => exact spares_error id
  | some value => exact spares_ok value

private theorem spares_requireId (field value : String) : Spares (requireId field value) := by
  unfold requireId
  split
  · exact spares_ok _
  · exact spares_error id

private theorem spares_requireIds (field : String) (values : List String) :
    Spares (requireIds field values) :=
  (spares_mapM (spares_requireId field) values).bind fun _ => spares_ok _

private theorem spares_readNamespace (field value : String) :
    Spares (readNamespace field value) := by
  unfold readNamespace
  split
  · exact spares_ok none
  · cases required : requireId field value with
    | ok id => exact spares_ok (some id)
    | error fault => exact spares_error (spares_requireId field value fault required)

private theorem spares_requirePlugins (field : String) (scope : Option ModuleId)
    (names : List String) : Spares (requirePlugins field scope names) := by
  unfold requirePlugins
  split
  · exact spares_error id
  · exact spares_ok ()

private theorem spares_requireFollowed (field key : String) (scope : Option ModuleId) :
    Spares (requireFollowed field key scope) := by
  refine (spares_requireId field key).bind fun id => ?_
  cases scope with
  | none => exact spares_ok id
  | some outer =>
    dsimp only
    split
    · exact spares_ok id
    · exact spares_error fun no => no

private theorem spares_readRows (scope : Option ModuleId) (table : PlatformTable)
    (rows : String × Dictionary String (List String)) : Spares (readRows scope table rows) := by
  refine (spares_requireFollowed _ _ scope).bind fun plugin =>
    spares_foldlM (fun table row => ?_) _ _
  unfold readRow
  split
  · exact spares_error fun no => no
  · exact (spares_requireIds _ _).bind fun _ => spares_ok _

end Spares

def withManifests (configuration : Configuration) (manifests : Dictionary ModuleId Declaration) :
    Configuration :=
  { configuration with manifests := manifests }

private theorem ofSections_eq (base : FilePath) (sections : Sections) : ofSections base sections =
    ofSections base { sections with manifests := ∅ } >>= fun configuration =>
      (sections.manifests.entries.foldlM (readManifest configuration.pluginNamespace) ∅).map
        configuration.withManifests := by
  unfold ofSections
  simp only [bind_assoc]
  refine congrArg _ (funext fun bundle => congrArg _ (funext fun entryPoint => ?_))
  split
  · rfl
  · simp only [bind_assoc]
    refine congrArg _ (funext fun scope => congrArg _ (funext fun always => ?_))
    refine congrArg _ (funext fun excludes => congrArg _ (funext fun _ => ?_))
    refine congrArg _ (funext fun table => ?_)
    have nothing : (∅ : Dictionary String Manifest).entries = [] := rfl
    rw [nothing, List.foldlM_nil, pure_bind, pure_bind]
    cases sections.manifests.entries.foldlM (readManifest scope) ∅ with
    | error fault => rfl
    | ok manifests => rfl

private theorem spares_ofSections (base : FilePath) (sections : Sections) :
    Spares (ofSections base { sections with manifests := ∅ }) := by
  unfold ofSections
  refine (spares_requireGiven _ _).bind fun bundle => (spares_requireGiven _ _).bind fun entry => ?_
  split
  · exact spares_error id
  · refine (spares_readNamespace _ _).bind fun scope => (spares_requireIds _ _).bind fun _ => ?_
    refine (spares_requireIds _ _).bind fun _ => (spares_requirePlugins _ _ _).bind fun _ => ?_
    refine (spares_foldlM (spares_readRows scope) _ _).bind fun _ => ?_
    exact spares_ok _

def vet (id : ModuleId) (manifest : Manifest) : Except ConfigurationFault Declaration :=
  match manifest.foreignId? id with
  | some declared => .error (.foreignManifestId id.text declared)
  | none =>
    match manifest.declaration id with
    | .error failure => .error (.manifest failure)
    | .ok declaration => .ok declaration

def readEntry (scope : Option ModuleId) (entry : String × Manifest) :
    Except ConfigurationFault (ModuleId × Declaration) := do
  let id ← requireFollowed ("manifests." ++ entry.1) entry.1 scope
  (vet id entry.2).map fun declaration => (id, declaration)

private theorem readManifest_eq (scope : Option ModuleId)
    (manifests : Dictionary ModuleId Declaration)
    (entry : String × Manifest) : readManifest scope manifests entry =
      (readEntry scope entry).map fun found => manifests.insert found.1 found.2 := by
  unfold readManifest readEntry vet
  cases followed : requireFollowed ("manifests." ++ entry.1) entry.1 scope with
  | error fault => rfl
  | ok id =>
    rw [← (requireFollowed_eq_ok.1 followed).1]
    simp only [bind, Except.bind]
    cases entry.2.foreignId? id with
    | some declared => rfl
    | none => cases entry.2.declaration id <;> rfl

private theorem name_of_readEntry {scope : Option ModuleId} {entry : String × Manifest}
    {found : ModuleId × Declaration} (passed : readEntry scope entry = .ok found) :
    found.1.text = entry.1 := by
  obtain ⟨id, followed, vetted⟩ := bind_eq_ok.1 passed
  obtain ⟨declaration, _, rfl⟩ := map_eq_ok.1 vetted
  exact (requireFollowed_eq_ok.1 followed).1

private theorem foldlM_eq_mapM {ε σ α β : Type} {step : σ → α → Except ε σ} {read : α → Except ε β}
    {put : σ → β → σ} (each : ∀ s a, step s a = (read a).map (put s)) (items : List α) (start : σ) :
    items.foldlM step start = (items.mapM read).map fun found => found.foldl put start := by
  induction items generalizing start with
  | nil => rfl
  | cons a rest ih =>
    rw [List.foldlM_cons, List.mapM_cons, each]
    cases read a with
    | error fault => rfl
    | ok b =>
      change rest.foldlM step (put start b) = _
      rw [ih]
      cases rest.mapM read with
      | error fault => rfl
      | ok others => rfl

private theorem readManifests_eq (scope : Option ModuleId) (entries : List (String × Manifest)) :
    entries.foldlM (readManifest scope) ∅ =
      (entries.mapM (readEntry scope)).map Dictionary.ofList :=
  foldlM_eq_mapM (readManifest_eq scope) entries ∅

/-- An entry in place of an earlier one, or at the end, is the only one that is read anew. -/
theorem mapM_readEntry_put {scope : Option ModuleId} {entries : List (String × Manifest)}
    {all : List (ModuleId × Declaration)} (passed : entries.mapM (readEntry scope) = .ok all)
    (key : String) (manifest : Manifest) :
    (Dictionary.put key manifest entries).mapM (readEntry scope) =
      (readEntry scope (key, manifest)).map fun found =>
        Dictionary.put found.1 found.2 all := by
  induction entries generalizing all with
  | nil =>
    cases passed
    unfold Dictionary.put
    rw [List.mapM_cons, List.mapM_nil]
    cases readEntry scope (key, manifest) <;> rfl
  | cons entry rest ih =>
    obtain ⟨first, later, read, readToo, rfl⟩ := mapM_cons_eq_ok.1 passed
    have named := name_of_readEntry read
    unfold Dictionary.put
    split
    · rename_i same
      rw [List.mapM_cons, readToo]
      cases outcome : readEntry scope (key, manifest) with
      | error fault => rfl
      | ok found =>
        have equal : first.1 = found.1 :=
          ModuleId.text_inj.1 (named.trans (same.trans (name_of_readEntry outcome).symm))
        simp [Except.map, equal]
    · rename_i different
      rw [List.mapM_cons, read, ih readToo]
      cases outcome : readEntry scope (key, manifest) with
      | error fault => rfl
      | ok found =>
        have other : first.1 ≠ found.1 := fun equal =>
          different (named.symm.trans ((congrArg _ equal).trans (name_of_readEntry outcome)))
        simp [Except.map, other]

private theorem keys_readEntry {scope : Option ModuleId} {entries : List (String × Manifest)}
    {all : List (ModuleId × Declaration)} (passed : entries.mapM (readEntry scope) = .ok all) :
    (all.map Prod.fst).map ModuleId.text = entries.map Prod.fst := by
  induction entries generalizing all with
  | nil =>
    cases passed
    rfl
  | cons entry rest ih =>
    obtain ⟨first, later, read, readToo, rfl⟩ := mapM_cons_eq_ok.1 passed
    rw [List.map_cons, List.map_cons, List.map_cons, ih readToo, name_of_readEntry read]

private theorem ofList_put {all : List (ModuleId × Declaration)}
    (distinct : (all.map Prod.fst).Nodup) (id : ModuleId) (declaration : Declaration) :
    Dictionary.ofList (Dictionary.put id declaration all) =
      (Dictionary.ofList all).insert id declaration := by
  have kept := Dictionary.entries_ofList distinct
  have added := Dictionary.entries_ofList
    (Dictionary.put_distinct distinct : (Dictionary.put id declaration all |>.map Prod.fst).Nodup)
  unfold Dictionary.insert
  rw [Dictionary.mk.injEq, added, kept]

private theorem mapM_readEntry_insert {scope : Option ModuleId}
    {manifests : Dictionary String Manifest} {all : List (ModuleId × Declaration)}
    (passed : manifests.entries.mapM (readEntry scope) = .ok all) {id : ModuleId}
    (inside : ∀ outer ∈ scope, id.isWithin outer = true) (manifest : Manifest) :
    ((manifests.insert id.text manifest).entries.mapM (readEntry scope)).map Dictionary.ofList =
      (vet id manifest).map fun declaration =>
        (Dictionary.ofList all).insert id declaration := by
  have distinct : (all.map Prod.fst).Nodup := by
    refine List.Nodup.of_map ModuleId.text ?_
    rw [keys_readEntry passed]
    exact manifests.distinct
  have followed : requireFollowed ("manifests." ++ id.text) id.text scope = .ok id :=
    requireFollowed_eq_ok.2 ⟨rfl, inside⟩
  unfold Dictionary.insert
  rw [mapM_readEntry_put passed, readEntry, followed]
  change Except.map _ (Except.map _ (Except.map _ (vet id manifest))) = _
  cases vet id manifest with
  | error fault => rfl
  | ok declaration => exact congrArg _ (ofList_put distinct id declaration)

/-- A configuration with one more inline manifest stands or falls with that manifest. -/
theorem ofSections_insert {base : FilePath} {sections : Sections} {configuration : Configuration}
    (accepted : ofSections base sections = .ok configuration) {id : ModuleId}
    (inside : ∀ outer ∈ configuration.pluginNamespace, id.isWithin outer = true)
    (manifest : Manifest) :
    ofSections base { sections with manifests := sections.manifests.insert id.text manifest } =
      (vet id manifest).map fun declaration =>
        configuration.withManifests (configuration.manifests.insert id declaration) := by
  rw [ofSections_eq] at accepted
  obtain ⟨plain, checked, read⟩ := bind_eq_ok.1 accepted
  obtain ⟨manifests, ran, rfl⟩ := map_eq_ok.1 read
  rw [readManifests_eq] at ran
  obtain ⟨all, passed, rfl⟩ := map_eq_ok.1 ran
  rw [ofSections_eq]
  change (ofSections base { sections with manifests := ∅ } >>= _) = _
  rw [checked]
  change Except.map plain.withManifests (List.foldlM _ _ _) = _
  rw [readManifests_eq, mapM_readEntry_insert passed inside]
  cases vet id manifest with
  | error fault => rfl
  | ok declaration => rfl

end Configuration

/-- What an inline manifest leads to at loading, and what the same manifest in a file leads to when
its module is looked up. -/
inductive Mirrors (manifest : Manifest) (id : ModuleId) :
    Except ConfigurationFault Declaration → Except LookupFailure Declaration → Prop
  | accepted (declaration : Declaration) (declares : manifest.Declares declaration) :
    Mirrors manifest id (.ok declaration) (.ok declaration)
  | foreign (stated : String) (states : manifest.id = some stated) (other : stated ≠ id.text) :
    Mirrors manifest id (.error (.foreignManifestId id.text stated))
      (.error (.malformed id (.foreignId stated)))
  | refused (invalid : InvalidModuleId) :
    Mirrors manifest id (.error (.manifest (.malformed id (.dependency invalid))))
      (.error (.malformed id (.dependency invalid)))

private theorem vet_mirrors {disk : Disk} {path : FilePath} {manifest : Manifest} (id : ModuleId)
    (held : disk.Holds path manifest) :
    Mirrors manifest id (Configuration.vet id manifest) (Catalog.readManifest disk id path) := by
  obtain ⟨text, read, decoded⟩ := held
  unfold Configuration.vet Catalog.readManifest Manifest.parse
  rw [read]
  simp only [decoded]
  cases own : manifest.foreignId? id with
  | some stated =>
    obtain ⟨states, other⟩ := Option.filter_eq_some_iff.1 own
    exact .foreign stated states (of_decide_eq_true other)
  | none =>
    change Mirrors manifest id (match manifest.declaration id with
      | .error failure => .error (.manifest failure)
      | .ok declaration => .ok declaration) (manifest.declaration id)
    cases declared : manifest.declaration id with
    | ok declaration => exact .accepted declaration (Manifest.declaration_eq_ok.1 declared)
    | error failure =>
      obtain ⟨invalid, rfl⟩ := Manifest.declaration_eq_error declared
      exact .refused invalid

namespace Configuration

/-- A fault of an inline manifest is found by the check of one of them. -/
theorem exists_vet_eq_error {base : FilePath} {sections : Sections} {fault : ConfigurationFault}
    (failed : ofSections base sections = .error fault) (ofManifest : fault.OfManifest) :
    ∃ id manifest, (id.text, manifest) ∈ sections.manifests.entries ∧
      vet id manifest = .error fault := by
  rw [ofSections_eq] at failed
  rcases bind_eq_error.1 failed with early | ⟨plain, _, late⟩
  · exact absurd ofManifest (spares_ofSections base sections fault early)
  · obtain ⟨before, entry, after, reached, split, _, stopped⟩ :=
      foldlM_eq_error.1 (map_eq_error.1 late)
    rw [readManifest_eq, map_eq_error] at stopped
    rcases bind_eq_error.1 stopped with unnamed | ⟨id, followed, vetted⟩
    · exact absurd ofManifest (spares_requireFollowed _ _ _ fault unnamed)
    · refine ⟨id, entry.2, ?_, map_eq_error.1 vetted⟩
      rw [(requireFollowed_eq_ok.1 followed).1, split]
      exact List.mem_append_right _ List.mem_cons_self

/-- Inline manifests and manifest files follow the same rules. The same table is the same manifest
in either place. Where the rest of a configuration is accepted and the module lies in the namespace,
the configuration is accepted with a manifest in it exactly if the manifest is of use in a file, and
both then declare the same; it is refused for what the file is called malformed for. Whenever a
configuration is refused for an inline manifest, that manifest is malformed in a file. And a module
with an inline manifest is what that says, whichever directory manifests are looked for in. -/
theorem inline_mirrors_file :
    (∀ text entries field, Toml.parse text = .ok entries →
      Manifest.ofText text = Manifest.ofValue field (.table entries)) ∧
    (∀ manifest, ∃ text, Manifest.ofText text = .ok manifest) ∧
    (∀ disk base text sections, Sections.ofText text = .ok sections →
      (ofText disk base text).value = ofSections base sections) ∧
    (∀ base sections configuration, ofSections base sections = .ok configuration →
      ∀ id : ModuleId, (∀ outer ∈ configuration.pluginNamespace, id.isWithin outer = true) →
      ∀ manifest disk path, Disk.Holds disk path manifest →
      ∃ outcome,
        ofSections base
            { sections with manifests := sections.manifests.insert id.text manifest } =
          outcome.map (fun declaration =>
            configuration.withManifests (configuration.manifests.insert id declaration)) ∧
        Mirrors manifest id outcome (Catalog.readManifest disk id path)) ∧
    (∀ base sections fault, ofSections base sections = .error fault → fault.OfManifest →
      ∃ id manifest, (id.text, manifest) ∈ sections.manifests.entries ∧
        ∀ disk path, Disk.Holds disk path manifest →
          ∃ reason, Catalog.readManifest disk id path = .error (.malformed id reason) ∧
            Mirrors manifest id (.error fault) (.error (.malformed id reason))) ∧
    ∀ (configuration : Configuration) id declaration,
      configuration.manifests.find? id = some declaration → ∀ disk directory,
        configuration.catalog.declaration disk id = pure (.ok declaration) ∧
        (configuration.setManifestDirectory directory).catalog.declaration disk id =
          pure (.ok declaration) ∧
        (configuration.catalog.setDirectory directory).declaration disk id =
          pure (.ok declaration) := by
  refine ⟨fun text entries field read => Manifest.ofText_eq_ofValue read field,
    Manifest.exists_text, fun disk base text sections decoded => value_ofText decoded, ?_, ?_, ?_⟩
  · intro base sections configuration accepted id inside manifest disk path held
    exact ⟨vet id manifest, ofSections_insert accepted inside manifest, vet_mirrors id held⟩
  · intro base sections fault failed ofManifest
    obtain ⟨id, manifest, member, refused⟩ := exists_vet_eq_error failed ofManifest
    refine ⟨id, manifest, member, fun disk path held => ?_⟩
    have mirrors := vet_mirrors id held
    rw [refused] at mirrors
    generalize Catalog.readManifest disk id path = answer at mirrors ⊢
    cases mirrors with
    | foreign stated states other => exact ⟨_, rfl, .foreign stated states other⟩
    | refused invalid => exact ⟨_, rfl, .refused invalid⟩
  · intro configuration id declaration found disk directory
    have stated : configuration.catalog.stated.find? id = some (.ok declaration) := by
      rw [find?_stated, found, Option.map_some]
    -- Another directory leaves what is stated as it is.
    refine ⟨Catalog.declaration_of_stated stated disk, ?_, ?_⟩
    · apply Catalog.declaration_of_stated
      exact stated
    · apply Catalog.declaration_of_stated
      exact stated

/-- A configuration with nothing but what it needs. -/
def spare : Sections where
  bundle := some ⟨some ⟨"m"⟩, [⟨"s"⟩], "ext", [], [], none⟩
  extensions := .list []
  platformDependencies := ∅
  manifests := ∅

/-- A manifest that states its own identifier and lists a module twice. -/
def repetitive : Manifest := ⟨some "ext.a", some ["ext.b", "ext.b"], none⟩

def filed : Disk :=
  ⟨(∅ : FileTree).put ["ext.a.toml"]
    (.file "id = \"ext.a\"\ndependencies = [\"ext.b\", \"ext.b\"]\n".toUTF8), []⟩

theorem inline_mirrors_file_repetitive :
    ∃ configuration, ofSections ⟨"/"⟩ spare = .ok configuration ∧
      ofSections ⟨"/"⟩ { spare with manifests := spare.manifests.insert "ext.a" repetitive } =
        .ok (configuration.withManifests (configuration.manifests.insert Resolver.extA
          (.fixed (.ofList [Resolver.extB])))) ∧
      Catalog.readManifest filed Resolver.extA ⟨"ext.a.toml"⟩ =
        .ok (.fixed (.ofList [Resolver.extB])) := by
  obtain ⟨_, _, _, mirrored, _⟩ := inline_mirrors_file
  have held : filed.Holds ⟨"ext.a.toml"⟩ repetitive := ⟨_, rfl, by decide +kernel⟩
  have found : Catalog.readManifest filed Resolver.extA ⟨"ext.a.toml"⟩ =
    .ok (.fixed (.ofList [Resolver.extB])) := by decide +kernel
  obtain ⟨configuration, accepted⟩ : ∃ configuration, ofSections ⟨"/"⟩ spare = .ok configuration :=
    ⟨_, rfl⟩
  have scope : (ofSections ⟨"/"⟩ spare).toOption.bind pluginNamespace = some Resolver.ext := rfl
  have inside : ∀ outer ∈ configuration.pluginNamespace, Resolver.extA.isWithin outer = true := by
    rw [accepted] at scope
    intro outer chosen
    obtain rfl := Option.some.inj (scope.symm.trans chosen)
    decide
  obtain ⟨outcome, made, mirrors⟩ :=
    mirrored _ _ _ accepted Resolver.extA inside repetitive filed ⟨"ext.a.toml"⟩ held
  rw [found] at mirrors
  cases mirrors
  exact ⟨configuration, accepted, made, found⟩

end Configuration
end BundlePlan
