import BundlePlan.PlatformTable
import Mathlib.Data.Finset.Card

/-! What a platform table holds after any insertions: in each row all that was ever inserted there,
and one row for each plugin and platform that something, or nothing, was inserted for. A plugin in
the table has a row. Neither the order of the insertions nor how they are grouped leaves a trace. -/
namespace BundlePlan.PlatformTable

variable {table : PlatformTable} {plugin id : ModuleId} {platform : Platform} {deps : List ModuleId}

def keys (table : PlatformTable) : List (ModuleId × Platform) :=
  table.rows.entries.flatMap fun plugin => plugin.2.keys.map (plugin.1, ·)

private theorem mem_keys :
    (plugin, platform) ∈ table.keys ↔ ∃ set, table.row? plugin platform = some set := by
  simp only [keys, row?_eq_some, Dictionary.keys, List.mem_flatMap, List.mem_map, Prod.mk.injEq]
  constructor
  · rintro ⟨⟨_, rows⟩, outer, _, ⟨⟨_, set⟩, inner, rfl⟩, rfl, rfl⟩
    exact ⟨set, rows, outer, inner⟩
  · rintro ⟨set, rows, outer, inner⟩
    exact ⟨_, outer, _, ⟨_, inner, rfl⟩, rfl, rfl⟩

private theorem keys_nodup (table : PlatformTable) : table.keys.Nodup := by
  refine List.nodup_flatMap.2 ⟨fun plugin _ => ?_, ?_⟩
  · have distinct : plugin.2.keys.Nodup := plugin.2.distinct
    exact distinct.map (Prod.mk_right_injective plugin.1)
  · refine (List.pairwise_map.1 table.rows.distinct).imp fun {first second} apart => ?_
    intro key here there
    obtain ⟨_, _, rfl⟩ := List.mem_map.1 here
    obtain ⟨_, _, same⟩ := List.mem_map.1 there
    exact apart (congrArg Prod.fst same).symm

private theorem length_keys (table : PlatformTable) : table.keys.length = table.size := by
  unfold keys size
  induction table.rows.entries with
  | nil => rfl
  | cons plugin rest ih =>
    rw [List.flatMap_cons, List.length_append, ih, List.length_map, Dictionary.keys, List.length_map]
    rfl

private theorem size_eq_card (table : PlatformTable) : table.size = table.keys.toFinset.card := by
  rw [List.toFinset_card_of_nodup table.keys_nodup, length_keys]

/-- Only the row that is inserted into changes. -/
theorem row?_insert (table : PlatformTable) (plugin : ModuleId) (platform : Platform)
    (deps : List ModuleId) (other : ModuleId) (second : Platform) :
    (table.insert plugin platform deps).row? other second =
      if (plugin, platform) = (other, second)
      then some ((table.extra plugin platform).union (.ofList deps))
      else table.row? other second := by
  unfold insert row? rowsOf
  rw [Dictionary.find?_insert]
  by_cases outer : plugin = other
  · subst outer
    rw [if_pos rfl, Option.getD_some, Dictionary.find?_insert]
    by_cases inner : platform = second
    · rw [if_pos inner, if_pos (congrArg _ inner)]
    · rw [if_neg inner, if_neg fun same => inner (Prod.mk.inj same).2]
  · rw [if_neg outer, if_neg fun same => outer (Prod.mk.inj same).1]

private theorem mem_keys_insert {row : ModuleId × Platform} :
    row ∈ (table.insert plugin platform deps).keys ↔
    row = (plugin, platform) ∨ row ∈ table.keys := by
  obtain ⟨other, second⟩ := row
  rw [mem_keys, mem_keys, row?_insert]
  split
  · rename_i same
    exact iff_of_true ⟨_, rfl⟩ (.inl same.symm)
  · rename_i apart
    exact (or_iff_right (Ne.symm apart)).symm

theorem size_insert_of_new (new : table.row? plugin platform = none) (deps : List ModuleId) :
    (table.insert plugin platform deps).size = table.size + 1 := by
  have absent : (plugin, platform) ∉ table.keys.toFinset := by
    rw [List.mem_toFinset, mem_keys, new]
    simp
  have more : (table.insert plugin platform deps).keys.toFinset =
      Insert.insert (plugin, platform) table.keys.toFinset := by
    ext row
    rw [List.mem_toFinset, mem_keys_insert, Finset.mem_insert, List.mem_toFinset]
  rw [size_eq_card, more, Finset.card_insert_of_notMem absent, size_eq_card]

/-- No plugin is in the table without a row. -/
def Filled (table : PlatformTable) : Prop :=
  ∀ plugin rows, table.rows.find? plugin = some rows → rows.entries ≠ []

private theorem Filled.insert (filled : table.Filled) (plugin : ModuleId) (platform : Platform)
    (deps : List ModuleId) : (table.insert plugin platform deps).Filled := by
  intro other rows found
  unfold PlatformTable.insert at found
  rw [Dictionary.find?_insert] at found
  split at found
  · obtain rfl := Option.some.inj found
    have held := Dictionary.find?_insert (table.rowsOf plugin) platform platform
      ((table.extra plugin platform).union (.ofList deps))
    rw [if_pos rfl, Dictionary.find?_eq_some_iff] at held
    exact List.ne_nil_of_mem held
  · exact filled other rows found

/-- The plugins are counted for emptiness and the rows for the size; with a row for each plugin
both tell the same. -/
theorem Filled.isEmpty_iff_size (filled : table.Filled) : table.isEmpty = true ↔ table.size = 0 := by
  rw [isEmpty, Dictionary.isEmpty, List.isEmpty_iff, ← length_keys, List.length_eq_zero_iff, keys,
    List.flatMap_eq_nil_iff]
  constructor
  · intro none
    rw [none]
    exact fun _ member => absurd member List.not_mem_nil
  · intro rowless
    refine List.eq_nil_iff_forall_not_mem.2 fun plugin member => ?_
    have found := (Dictionary.find?_eq_some_iff table.rows).2 member
    exact filled plugin.1 plugin.2 found
      (List.map_eq_nil_iff.1 (List.map_eq_nil_iff.1 (rowless plugin member)))

structure Insertion where
  plugin : ModuleId
  platform : Platform
  deps : List ModuleId
deriving DecidableEq

def Insertion.row (insertion : Insertion) : ModuleId × Platform :=
  (insertion.plugin, insertion.platform)

def apply (table : PlatformTable) (insertion : Insertion) : PlatformTable :=
  table.insert insertion.plugin insertion.platform insertion.deps

def after (table : PlatformTable) (insertions : List Insertion) : PlatformTable :=
  insertions.foldl apply table

/-- One of the insertions puts this module into this row. -/
def Inserts (insertions : List Insertion) (row : ModuleId × Platform) (id : ModuleId) : Prop :=
  ∃ insertion ∈ insertions, insertion.row = row ∧ id ∈ insertion.deps

/-- The same insertions in another order or in other groups: what one insertion puts into a row may
be put there by several, and the other way round. -/
inductive Regrouped : List Insertion → List Insertion → Prop
  | moved {first second : List Insertion} (permuted : first.Perm second) : Regrouped first second
  | split (before later : List Insertion) (plugin : ModuleId) (platform : Platform)
      (deps : List ModuleId) (groups : List (List ModuleId)) (given : groups ≠ [])
      (same : ∀ id, id ∈ deps ↔ ∃ group ∈ groups, id ∈ group) :
      Regrouped (before ++ ⟨plugin, platform, deps⟩ :: later)
        (before ++ groups.map (⟨plugin, platform, ·⟩) ++ later)
  | symm {first second : List Insertion} (regrouped : Regrouped first second) :
      Regrouped second first
  | trans {first second third : List Insertion} (regrouped : Regrouped first second)
      (further : Regrouped second third) : Regrouped first third

variable {insertion : Insertion} {insertions first second : List Insertion}
  {row : ModuleId × Platform}

private theorem extra_apply (table : PlatformTable) (insertion : Insertion) (plugin : ModuleId)
    (platform : Platform) : (table.apply insertion).extra plugin platform =
      if insertion.row = (plugin, platform)
      then (table.extra plugin platform).union (.ofList insertion.deps)
      else table.extra plugin platform := by
  rw [apply, extra, row?_insert, ← Insertion.row]
  split
  · rename_i same
    obtain ⟨rfl, rfl⟩ := Prod.mk.inj same
    rfl
  · rfl

private theorem mem_extra_apply : id ∈ (table.apply insertion).extra plugin platform ↔
    id ∈ table.extra plugin platform ∨
      insertion.row = (plugin, platform) ∧ id ∈ insertion.deps := by
  rw [extra_apply]
  split
  · rename_i same
    simp [same]
  · rename_i other
    exact (or_iff_left fun both => other both.1).symm

/-- What a row held before stays there, and what is inserted into it is added. -/
theorem mem_extra_after (table : PlatformTable) (insertions : List Insertion) :
    id ∈ (after table insertions).extra plugin platform ↔
      id ∈ table.extra plugin platform ∨ Inserts insertions (plugin, platform) id := by
  induction insertions generalizing table with
  | nil => simp [after, Inserts]
  | cons insertion rest ih =>
    change id ∈ (after (table.apply insertion) rest).extra plugin platform ↔ _
    rw [ih, mem_extra_apply, or_assoc]
    simp only [Inserts, List.exists_mem_cons_iff]

private theorem mem_extra_start :
    id ∈ (after ∅ insertions).extra plugin platform ↔ Inserts insertions (plugin, platform) id := by
  have nothing : id ∉ (∅ : PlatformTable).extra plugin platform := ModuleSet.not_mem_empty id
  rw [mem_extra_after, or_iff_right nothing]

private theorem mem_keys_after (table : PlatformTable) (insertions : List Insertion) :
    row ∈ (after table insertions).keys ↔
      row ∈ table.keys ∨ row ∈ insertions.map Insertion.row := by
  induction insertions generalizing table with
  | nil => simp [after]
  | cons insertion rest ih =>
    have added : row ∈ (table.apply insertion).keys ↔ row = insertion.row ∨ row ∈ table.keys :=
      mem_keys_insert
    change row ∈ (after (table.apply insertion) rest).keys ↔ _
    rw [ih, added, List.map_cons, List.mem_cons, or_comm (a := row = insertion.row), or_assoc]

private theorem mem_keys_start :
    row ∈ (after ∅ insertions).keys ↔ row ∈ insertions.map Insertion.row := by
  rw [mem_keys_after, or_iff_right]
  exact List.not_mem_nil

private theorem filled_after (filled : table.Filled) (insertions : List Insertion) :
    (after table insertions).Filled := by
  induction insertions generalizing table with
  | nil => exact filled
  | cons insertion rest ih => exact ih (filled.insert _ _ _)

private theorem filled_start (insertions : List Insertion) : (after ∅ insertions).Filled := by
  refine filled_after (fun plugin rows found => ?_) insertions
  have none : (∅ : PlatformTable).rows.find? plugin = none := rfl
  rw [none] at found
  cases found

/-- There is one row for each pair that was inserted. -/
theorem size_start (insertions : List Insertion) :
    (after ∅ insertions).size = (insertions.map Insertion.row).toFinset.card := by
  have same : (after ∅ insertions).keys.toFinset = (insertions.map Insertion.row).toFinset := by
    ext row
    rw [List.mem_toFinset, List.mem_toFinset, mem_keys_start]
  rw [size_eq_card, same]

private theorem inserts_append :
    Inserts (first ++ second) row id ↔ Inserts first row id ∨ Inserts second row id := by
  simp only [Inserts, List.mem_append, or_and_right, exists_or]

private theorem inserts_cons : Inserts (insertion :: insertions) row id ↔
    insertion.row = row ∧ id ∈ insertion.deps ∨ Inserts insertions row id :=
  List.exists_mem_cons_iff _ _ _

private theorem inserts_groups {groups : List (List ModuleId)} :
    Inserts (groups.map (⟨plugin, platform, ·⟩)) row id ↔
      (plugin, platform) = row ∧ ∃ group ∈ groups, id ∈ group := by
  constructor
  · rintro ⟨_, member, here, listed⟩
    obtain ⟨group, inside, rfl⟩ := List.mem_map.1 member
    exact ⟨here, group, inside, listed⟩
  · rintro ⟨here, group, inside, listed⟩
    exact ⟨_, List.mem_map.2 ⟨group, inside, rfl⟩, here, listed⟩

theorem Regrouped.inserts_iff (regrouped : Regrouped first second) :
    Inserts first row id ↔ Inserts second row id := by
  induction regrouped with
  | moved permuted => simp only [Inserts, permuted.mem_iff]
  | split before later plugin platform deps groups given same =>
    rw [List.append_assoc, inserts_append, inserts_append, inserts_append, inserts_cons,
      inserts_groups, same]
    exact Iff.rfl
  | symm _ ih => exact ih.symm
  | trans _ _ ih ihToo => exact ih.trans ihToo

theorem Regrouped.mem_rows_iff (regrouped : Regrouped first second) :
    row ∈ first.map Insertion.row ↔ row ∈ second.map Insertion.row := by
  induction regrouped with
  | moved permuted => exact (permuted.map _).mem_iff
  | split before later plugin platform deps groups given same =>
    -- There is a group, so that something, or nothing, is still inserted into the row.
    have grouped : row ∈ (groups.map (⟨plugin, platform, ·⟩)).map Insertion.row ↔
        row = (plugin, platform) := by
      rw [List.map_map]
      change row ∈ groups.map (fun _ => (plugin, platform)) ↔ _
      rw [List.map_const', List.mem_replicate, and_iff_right (mt List.length_eq_zero_iff.1 given)]
    rw [List.map_append, List.map_append, List.map_append, List.map_cons, List.append_assoc,
      List.mem_append, List.mem_append, List.mem_append, List.mem_cons, grouped]
    exact Iff.rfl
  | symm _ ih => exact ih.symm
  | trans _ _ ih ihToo => exact ih.trans ihToo

/-- Each row holds exactly what was inserted into it, and is empty if nothing was. There are as many
rows as pairs were inserted, if only with no dependencies, and none only if nothing was inserted.
Insertions in another order or in other groups lead to the same rows. -/
theorem after_accumulates (insertions : List Insertion) :
    let table := after ∅ insertions
    (∀ plugin platform id, id ∈ table.extra plugin platform ↔
      ∃ insertion ∈ insertions, insertion.row = (plugin, platform) ∧ id ∈ insertion.deps) ∧
    (∀ plugin platform, (plugin, platform) ∉ insertions.map Insertion.row →
      table.extra plugin platform = ∅) ∧
    table.size = (insertions.map Insertion.row).toFinset.card ∧
    (table.isEmpty = true ↔ table.size = 0) ∧ (table.size = 0 ↔ insertions = []) ∧
    ∀ others, Regrouped insertions others →
      (after ∅ others).extra = table.extra ∧ (after ∅ others).size = table.size := by
  intro table
  refine ⟨fun _ _ _ => mem_extra_start, fun plugin platform absent => ?_, size_start insertions,
    (filled_start insertions).isEmpty_iff_size, ?_, fun others regrouped => ⟨?_, ?_⟩⟩
  · refine ModuleSet.ext_mem fun id => iff_of_false (fun member => ?_) (ModuleSet.not_mem_empty id)
    obtain ⟨insertion, inside, here, _⟩ := mem_extra_start.1 member
    exact absent (List.mem_map.2 ⟨insertion, inside, here⟩)
  · rw [size_start, Finset.card_eq_zero, List.toFinset_eq_empty_iff, List.map_eq_nil_iff]
  · funext plugin platform
    refine ModuleSet.ext_mem fun id => ?_
    rw [mem_extra_start, mem_extra_start, regrouped.inserts_iff]
  · have same : (insertions.map Insertion.row).toFinset = (others.map Insertion.row).toFinset := by
      ext row
      rw [List.mem_toFinset, List.mem_toFinset, regrouped.mem_rows_iff]
    rw [size_start, size_start, same]

/-- A row in two pieces, the second of which overlaps the first, and one without dependencies. -/
theorem after_accumulates_overlapping :
    let plugin : ModuleId := ⟨"ext.a", by decide⟩
    let x : ModuleId := ⟨"x", by decide⟩
    let y : ModuleId := ⟨"y", by decide⟩
    let whole : List Insertion := [⟨plugin, .macos, [x, y]⟩, ⟨plugin, .linux, []⟩]
    let pieces : List Insertion := [⟨plugin, .macos, [x]⟩, ⟨plugin, .macos, [y, x]⟩,
      ⟨plugin, .linux, []⟩]
    Regrouped whole pieces ∧ (after ∅ pieces).extra = (after ∅ whole).extra ∧
      (after ∅ pieces).size = 2 ∧ x ∈ (after ∅ whole).extra plugin .macos ∧
      (after ∅ whole).extra plugin .windows = ∅ := by
  intro plugin x y whole pieces
  have regrouped : Regrouped whole pieces := by
    refine .split [] [⟨plugin, .linux, []⟩] plugin .macos [x, y] [[x], [y, x]] nofun fun id => ?_
    simp only [List.mem_cons, List.not_mem_nil, or_false, exists_eq_or_imp, exists_eq_left]
    tauto
  obtain ⟨held, none, size, _, _, same⟩ := after_accumulates whole
  obtain ⟨rows, sizes⟩ := same pieces regrouped
  refine ⟨regrouped, rows, sizes.trans (size.trans (by decide)), ?_, none plugin .windows (by decide)⟩
  exact (held plugin .macos x).2 ⟨_, List.mem_cons_self, rfl, List.mem_cons_self⟩

end BundlePlan.PlatformTable
