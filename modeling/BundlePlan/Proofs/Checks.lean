import BundlePlan.Proofs.Acceptance
import Mathlib.Data.List.Forall2
import Mathlib.Data.List.Basic

/-! What each check of a configuration lets pass, and what it makes of it. -/
namespace BundlePlan

def IsModuleId (text : String) : Prop := ∃ id : ModuleId, id.text = text

theorem ModuleId.parse?_eq_some {text : String} {id : ModuleId} :
    ModuleId.parse? text = some id ↔ id.text = text := by
  constructor
  · exact ModuleId.text_of_parse?
  · intro same
    rw [← same]
    exact ModuleId.parse?_text id

theorem ModuleId.parse_eq_ok {text : String} {id : ModuleId} :
    ModuleId.parse text = .ok id ↔ id.text = text := by
  rw [← ModuleId.parse?_eq_some, ModuleId.parse]
  cases ModuleId.parse? text with
  | none => simp
  | some other => simp

private theorem ModuleId.isSome_parse? {text : String} :
    (ModuleId.parse? text).isSome = true ↔ IsModuleId text := by
  simp only [Option.isSome_iff_exists, ModuleId.parse?_eq_some, IsModuleId]

theorem Platform.ofName?_eq_some {name : String} {platform : Platform} :
    Platform.ofName? name = some platform ↔ platform.name = name := by
  constructor
  · intro found
    have same := List.find?_some found
    exact beq_iff_eq.1 same
  · intro same
    rw [← same]
    exact Platform.ofName?_name platform

private theorem exists_map_text {texts : List String} :
    (∃ ids : List ModuleId, ids.map ModuleId.text = texts) ↔ ∀ text ∈ texts, IsModuleId text := by
  induction texts with
  | nil => simp
  | cons text rest ih =>
    rw [List.forall_mem_cons, ← ih]
    constructor
    · rintro ⟨ids, same⟩
      cases ids with
      | nil => cases same
      | cons id others =>
        rw [List.map_cons, List.cons.injEq] at same
        exact ⟨⟨id, same.1⟩, others, same.2⟩
    · rintro ⟨⟨id, rfl⟩, ids, rfl⟩
      exact ⟨id :: ids, rfl⟩

/-- The set is that of the modules listed by these texts, all of which are identifiers. -/
def Lists (texts : List String) (set : ModuleSet) : Prop :=
  (∀ text ∈ texts, IsModuleId text) ∧ ∀ id, id ∈ set ↔ id.text ∈ texts

theorem lists_iff {texts : List String} {set : ModuleSet} :
    Lists texts set ↔ ∃ ids : List ModuleId, ids.map ModuleId.text = texts ∧ .ofList ids = set := by
  have injective : Function.Injective ModuleId.text := fun _ _ => ModuleId.text_inj.1
  constructor
  · rintro ⟨valid, members⟩
    obtain ⟨ids, rfl⟩ := exists_map_text.2 valid
    refine ⟨ids, rfl, ModuleSet.ext_mem fun id => ?_⟩
    rw [ModuleSet.mem_ofList, members, List.mem_map_of_injective injective]
  · rintro ⟨ids, rfl, rfl⟩
    refine ⟨exists_map_text.1 ⟨ids, rfl⟩, fun id => ?_⟩
    rw [ModuleSet.mem_ofList, List.mem_map_of_injective injective]

theorem exists_lists {texts : List String} :
    (∃ set, Lists texts set) ↔ ∀ text ∈ texts, IsModuleId text := by
  rw [← exists_map_text]
  constructor
  · rintro ⟨set, valid, _⟩
    exact exists_map_text.2 valid
  · rintro ⟨ids, same⟩
    exact ⟨.ofList ids, lists_iff.2 ⟨ids, same, rfl⟩⟩

theorem exists_platform {name : String} :
    (∃ platform : Platform, platform.name = name) ↔
      name ∈ ["linux", "macos", "windows", "other"] := by
  simp only [List.mem_cons, List.not_mem_nil, or_false]
  constructor
  · rintro ⟨platform, rfl⟩
    cases platform <;> simp [Platform.name]
  · rintro (rfl | rfl | rfl | rfl)
    · exact ⟨.linux, rfl⟩
    · exact ⟨.macos, rfl⟩
    · exact ⟨.windows, rfl⟩
    · exact ⟨.other, rfl⟩

namespace Configuration

/-- Reading one by one what `write` would write succeeds with exactly that. -/
theorem mapM_eq_ok {ε α β : Type} {read : α → Except ε β} {write : β → α}
    (each : ∀ a b, read a = .ok b ↔ write b = a) {list : List α} {result : List β} :
    list.mapM read = .ok result ↔ result.map write = list := by
  induction list generalizing result with
  | nil => simp [eq_comm]
  | cons a rest ih =>
    simp only [mapM_cons_eq_ok, each, ih]
    constructor
    · rintro ⟨b, others, rfl, rfl, rfl⟩
      rfl
    · intro same
      cases result with
      | nil => cases same
      | cons b others =>
        rw [List.map_cons, List.cons.injEq] at same
        exact ⟨b, others, same.1, same.2, rfl⟩

/-- A fold whose steps succeed on the same items in every state succeeds if it meets no other. -/
theorem exists_foldlM {ε σ β : Type} {step : σ → β → Except ε σ} {good : β → Prop}
    (each : ∀ s b, (∃ next, step s b = .ok next) ↔ good b) (list : List β) (start : σ) :
    (∃ last, list.foldlM step start = .ok last) ↔ ∀ b ∈ list, good b := by
  induction list generalizing start with
  | nil => simp
  | cons b rest ih =>
    simp only [List.foldlM_cons, bind_eq_ok, List.forall_mem_cons]
    constructor
    · rintro ⟨last, next, first, others⟩
      exact ⟨(each start b).1 ⟨next, first⟩, (ih next).1 ⟨last, others⟩⟩
    · rintro ⟨here, later⟩
      obtain ⟨next, first⟩ := (each start b).2 here
      obtain ⟨last, others⟩ := (ih next).2 later
      exact ⟨last, next, first, others⟩

/-- What holds after the items done so far, item by item, holds at the end after all of them. -/
theorem foldlM_holds {ε σ β : Type} {step : σ → β → Except ε σ} (holds : List β → σ → Prop)
    {list : List β}
    (each : ∀ done b rest s next, list = done ++ b :: rest → holds done s →
      step s b = .ok next → holds (done ++ [b]) next)
    {start last : σ} (held : holds [] start) (ran : list.foldlM step start = .ok last) :
    holds list last := by
  -- The invariant is about the items done, so the induction is on those that are left.
  have further : ∀ rest done s, list = done ++ rest → holds done s →
      rest.foldlM step s = .ok last → holds list last := by
    intro rest
    induction rest with
    | nil =>
      intro done s split here ended
      cases ended
      rw [split, List.append_nil]
      exact here
    | cons b rest ih =>
      intro done s split here ran
      rw [List.foldlM_cons, bind_eq_ok] at ran
      obtain ⟨next, first, others⟩ := ran
      have moved : list = (done ++ [b]) ++ rest := by simp [split]
      exact ih (done ++ [b]) next moved (each done b rest s next split here first) others
  exact further list [] start rfl held ran

@[simp] theorem requireId_eq_ok {field value : String} {id : ModuleId} :
    requireId field value = .ok id ↔ id.text = value := by
  rw [← ModuleId.parse?_eq_some, requireId]
  cases ModuleId.parse? value with
  | none => simp
  | some other => simp

@[simp] theorem requireIds_eq_ok {field : String} {values : List String} {set : ModuleSet} :
    requireIds field values = .ok set ↔ Lists values set := by
  simp [requireIds, lists_iff, mapM_eq_ok fun _ _ => requireId_eq_ok]

/-- The namespace that a text stands for; an empty one stands for none. -/
def Names (text : String) : Option ModuleId → Prop
  | none => text = ""
  | some id => text ≠ "" ∧ id.text = text

theorem readNamespace_eq_ok {field value : String} {scope : Option ModuleId} :
    readNamespace field value = .ok scope ↔ Names value scope := by
  unfold readNamespace
  split
  · rename_i empty
    cases scope with
    | none => simp [Names, empty]
    | some id => simp [Names, empty]
  · rename_i named
    have read (id : ModuleId) : (requireId field value).map some = .ok (some id) ↔
        requireId field value = .ok id := by
      cases requireId field value with
      | error fault => simp [Except.map]
      | ok other => simp [Except.map]
    cases scope with
    | none => cases requireId field value <;> simp [Names, named, Except.map]
    | some id => simp [Names, named, read, requireId_eq_ok]

theorem exists_names {text : String} :
    (∃ scope, Names text scope) ↔ text = "" ∨ IsModuleId text := by
  constructor
  · rintro ⟨_ | id, names⟩
    · exact .inl names
    · exact .inr ⟨id, names.2⟩
  · intro either
    by_cases empty : text = ""
    · exact ⟨none, empty⟩
    · obtain ⟨id, same⟩ := either.resolve_left empty
      exact ⟨some id, empty, same⟩

def qualified (scope name : String) : String := if scope = "" then name else scope ++ "." ++ name

theorem isSome_pluginId? {text name : String} {scope : Option ModuleId} (names : Names text scope) :
    (pluginId? scope name).isSome = true ↔ IsModuleId (qualified text name) := by
  rw [← ModuleId.isSome_parse?, qualified]
  cases scope with
  | none =>
    have empty : text = "" := names
    rw [if_pos empty]
    rfl
  | some id =>
    obtain ⟨named, same⟩ := names
    rw [if_neg named]
    simp only [pluginId?, ModuleId.child, ModuleId.parse, same]
    cases ModuleId.parse? (text ++ "." ++ name) <;> rfl

theorem requirePlugins_eq_ok {field text : String} {scope : Option ModuleId} {names : List String}
    (named : Names text scope) : requirePlugins field scope names = .ok () ↔
      ∀ name ∈ names, isPrivate name = false → IsModuleId (qualified text name) := by
  have passes : requirePlugins field scope names = .ok () ↔
      names.find? (fun name => !isPrivate name && (pluginId? scope name).isNone) = none := by
    unfold requirePlugins
    cases names.find? fun name => !isPrivate name && (pluginId? scope name).isNone with
    | none => simp
    | some name => simp
  simp [passes, List.find?_eq_none, ← isSome_pluginId? named, Option.isSome_iff_ne_none]

/-- The module of this name may be given dependencies: it lies in the namespace, if there is one. -/
def InNamespace (scope key : String) : Prop :=
  ∃ id : ModuleId, id.text = key ∧
    (scope = "" ∨ ∃ outer : ModuleId, outer.text = scope ∧ id.isWithin outer = true)

@[simp] theorem requireFollowed_eq_ok {field key : String} {scope : Option ModuleId}
    {id : ModuleId} :
    requireFollowed field key scope = .ok id ↔
      id.text = key ∧ ∀ outer ∈ scope, id.isWithin outer = true := by
  simp only [requireFollowed, bind_eq_ok, requireId_eq_ok]
  constructor
  · rintro ⟨other, rfl, passed⟩
    cases scope with
    | none =>
      cases passed
      simp
    | some outer =>
      by_cases within : other.isWithin outer = true
      · simp only [within, if_true] at passed
        cases passed
        simp [within]
      · simp only [within] at passed
        cases passed
  · rintro ⟨same, within⟩
    refine ⟨id, same, ?_⟩
    cases scope with
    | none => rfl
    | some outer =>
      simp only [within outer rfl, if_true]
      rfl

theorem exists_requireFollowed {field key text : String} {scope : Option ModuleId}
    (names : Names text scope) :
    (∃ id, requireFollowed field key scope = .ok id) ↔ InNamespace text key := by
  simp only [requireFollowed_eq_ok, InNamespace]
  cases scope with
  | none =>
    have empty : text = "" := names
    simp [empty]
  | some outer =>
    obtain ⟨named, rfl⟩ := names
    simp [named]

end Configuration

namespace Manifest
open BundlePlan.Configuration

/-- The declaration says what the manifest lists. -/
def Declares (manifest : Manifest) : Declaration → Prop
  | .none => manifest.dependencies = none
  | .fixed set => ∃ texts, manifest.dependencies = some texts ∧ Lists texts set
  | .query _ => False

theorem declared_eq_ok {manifest : Manifest} {declaration : Declaration} :
    manifest.declared = .ok declaration ↔ manifest.Declares declaration := by
  unfold declared
  cases given : manifest.dependencies with
  | none => cases declaration <;> simp [Declares, given]
  | some texts =>
    simp only [bind_eq_ok, mapM_eq_ok fun _ _ => ModuleId.parse_eq_ok]
    cases declaration <;> simp [Declares, given, lists_iff]

theorem declaration_eq_ok {manifest : Manifest} {id : ModuleId} {declaration : Declaration} :
    manifest.declaration id = .ok declaration ↔ manifest.Declares declaration := by
  rw [← declared_eq_ok, Manifest.declaration]
  cases manifest.declared with
  | ok other => simp
  | error invalid => simp

theorem exists_declares {manifest : Manifest} :
    (∃ declaration, manifest.Declares declaration) ↔
      ∀ texts, manifest.dependencies = some texts → ∀ text ∈ texts, IsModuleId text := by
  constructor
  · rintro ⟨declaration, said⟩ texts given
    cases declaration with
    | none => rw [said] at given; cases given
    | fixed set =>
      obtain ⟨_, same, valid, _⟩ := said
      rw [same] at given
      cases given
      exact valid
    | query _ => exact said.elim
  · intro valid
    cases given : manifest.dependencies with
    | none => exact ⟨.none, given⟩
    | some texts =>
      obtain ⟨set, lists⟩ := exists_lists.2 (valid texts given)
      exact ⟨.fixed set, texts, given, lists⟩

theorem foreignId?_eq_none {manifest : Manifest} {id : ModuleId} :
    manifest.foreignId? id = none ↔ manifest.id = none ∨ manifest.id = some id.text := by
  unfold foreignId?
  cases manifest.id with
  | none => simp
  | some declared => simp

end Manifest
end BundlePlan
